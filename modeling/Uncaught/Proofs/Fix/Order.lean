import Mathlib.Data.List.Basic
import Mathlib.Logic.Relation
import Uncaught.Fix.Edits

/-!
The order of the edits of a group. The edits are those of the replacements at the leaves of the group,
each once: from the last place to the first and, at one place, by which part of their ranges they replace.
Where neither tells two of them apart they stay in the order of the leaves. How the leaves are grouped
makes no difference.
-/

namespace Uncaught

/-- Sorting leaves elements in their order that may stand in any order. -/
theorem filter_mergeSort {α : Type} {le : α → α → Bool}
    (htrans : ∀ a b c, le a b = true → le b c = true → le a c = true)
    (htotal : ∀ a b, (le a b || le b a) = true) {p : α → Bool}
    (hp : ∀ a b, p a = true → p b = true → le a b = true) (l : List α) :
    (l.mergeSort le).filter p = l.filter p := by
  have hpairwise : (l.filter p).Pairwise fun a b => le a b = true := by
    apply List.pairwise_iff_forall_sublist.mpr
    intro a b hab
    have ha := List.mem_filter.mp (hab.subset List.mem_cons_self)
    have hb := List.mem_filter.mp (hab.subset (List.mem_cons_of_mem a List.mem_cons_self))
    exact hp a b ha.2 hb.2
  have hsublist := (List.sublist_mergeSort htrans htotal hpairwise List.filter_sublist).filter p
  rw [List.filter_filter] at hsublist
  simp only [Bool.and_self] at hsublist
  have hlength := ((List.mergeSort_perm l le).filter p).length_eq
  exact (hsublist.eq_of_length hlength.symm).symm

theorem eq_filter_append_filter_not {α : Type} {p : α → Bool} {l : List α}
    (hl : l.Pairwise fun a b => p b = true → p a = true) :
    l = l.filter p ++ l.filter fun a => !p a := by
  induction l with
  | nil => rfl
  | cons a l ih =>
      obtain ⟨hfirst, hl⟩ := List.pairwise_cons.mp hl
      cases ha : p a with
      | true =>
          rw [List.filter_cons_of_pos ha, List.filter_cons_of_neg (by simp [ha]), List.cons_append,
            ← ih hl]
      | false =>
          have hnone : ∀ b ∈ a :: l, ¬p b = true := by
            intro b hb
            rcases List.mem_cons.mp hb with rfl | hb
            · simp [ha]
            · exact fun hpb => by simp [hfirst b hb hpb] at ha
          rw [List.filter_eq_nil_iff.mpr hnone, List.nil_append, eq_comm, List.filter_eq_self]
          intro b hb
          simpa using hnone b hb

namespace RankedEdit

@[simp] theorem before_iff (a b : RankedEdit) :
    a.before b = true ↔ b.edit.range.start < a.edit.range.start ∨
      a.edit.range.start = b.edit.range.start ∧ a.rank ≤ b.rank := by
  simp [before]

theorem before_trans (a b c : RankedEdit) (hab : a.before b = true) (hbc : b.before c = true) :
    a.before c = true := by
  rw [before_iff, UInt32.lt_iff_toNat_lt, ← UInt32.toNat_inj] at hab hbc ⊢
  omega

theorem before_total (a b : RankedEdit) : (a.before b || b.before a) = true := by
  rw [Bool.or_eq_true, before_iff, before_iff, UInt32.lt_iff_toNat_lt, UInt32.lt_iff_toNat_lt,
    ← UInt32.toNat_inj, ← UInt32.toNat_inj]
  omega

end RankedEdit

/-- Of edits that start at one place those at the end of a range come first, then those of whole ranges,
then those at the beginning of a range. -/
def Target.Precedes : Target → Target → Prop
  | .ending, .all | .ending, .beginning | .all, .beginning => True
  | _, _ => False

theorem Target.not_precedes_ending {target : Target} : ¬target.Precedes .ending := by
  cases target <;> exact id

theorem Target.eq_ending_of_precedes_all {target : Target} (hprecedes : target.Precedes .all) :
    target = .ending := by
  cases target with
  | ending => rfl
  | all | beginning | text _ | pattern _ | select _ => exact hprecedes.elim

namespace Replacement

variable {r s : Replacement} {e : TextEdit}

/-- The first may be applied before the second: it does not start earlier and, at one place, its target
does not come later. -/
def AppliesBefore (r s : Replacement) : Prop :=
  ∀ e f, r.edit? = some e → s.edit? = some f →
    f.range.start ≤ e.range.start ∧
      (e.range.start = f.range.start → r.target = s.target ∨ r.target.Precedes s.target)

/-- The replacement has an edit that starts at this place. -/
def startsAt (start : UInt32) (r : Replacement) : Bool := r.edit?.any (·.range.start = start)

/-- The replacement has this target and an edit that starts at this place. -/
def appliesAt (start : UInt32) (target : Target) (r : Replacement) : Bool :=
  r.target = target && r.startsAt start

theorem startsAt_iff {start : UInt32} :
    r.startsAt start = true ↔ ∃ e, r.edit? = some e ∧ e.range.start = start := by
  rw [startsAt, Option.any_eq_true]
  simp only [decide_eq_true_eq]

@[simp] theorem appliesAt_iff {start : UInt32} {target : Target} :
    r.appliesAt start target = true ↔
      r.target = target ∧ ∃ e, r.edit? = some e ∧ e.range.start = start := by
  rw [appliesAt, Bool.and_eq_true, decide_eq_true_eq, startsAt_iff]

/-- The ranked edit, with a stand-in if there is no edit. -/
def ranked (r : Replacement) : RankedEdit := ⟨r.target.rank, r.edit?.getD ⟨⟨0, 0⟩, ""⟩⟩

theorem ranked_of_edit? (he : r.edit? = some e) : r.ranked = ⟨r.target.rank, e⟩ := by
  rw [ranked, he, Option.getD_some]

/-- Only three targets name a place. -/
theorem target_of_edit? (he : r.edit? = some e) :
    r.target = .ending ∨ r.target = .all ∨ r.target = .beginning := by
  rw [edit?] at he
  obtain ⟨range, -, he⟩ := Option.bind_eq_some_iff.mp he
  obtain ⟨place, hplace, -⟩ := Option.bind_eq_some_iff.mp he
  cases htarget : r.target with
  | all | beginning | ending => simp
  | text _ | pattern _ | select _ =>
      rw [htarget] at hplace
      cases hplace

theorem appliesBefore_of_before (hbefore : r.ranked.before s.ranked = true) : r.AppliesBefore s := by
  intro e f he hf
  rw [ranked_of_edit? he, ranked_of_edit? hf, RankedEdit.before_iff] at hbefore
  rcases hbefore with hlt | ⟨hstart, hrank⟩
  · exact ⟨UInt32.le_of_lt hlt, fun hstart => absurd hlt (hstart ▸ UInt32.lt_irrefl _)⟩
  · refine ⟨UInt32.le_of_eq hstart.symm, fun _ => ?_⟩
    rcases target_of_edit? he with hr | hr | hr <;> rcases target_of_edit? hf with hs | hs | hs <;>
      simp_all [Target.rank, Target.Precedes]

theorem before_of_appliesAt {start : UInt32} {target : Target}
    (hr : r.appliesAt start target = true) (hs : s.appliesAt start target = true) :
    r.ranked.before s.ranked = true := by
  obtain ⟨hrtarget, e, he, hestart⟩ := appliesAt_iff.mp hr
  obtain ⟨hstarget, f, hf, hfstart⟩ := appliesAt_iff.mp hs
  rw [ranked_of_edit? he, ranked_of_edit? hf, RankedEdit.before_iff]
  exact Or.inr ⟨hestart.trans hfstart.symm, Nat.le_of_eq (by rw [hrtarget, hstarget])⟩

theorem isSome_of_appliesAt {start : UInt32} {target : Target} (hr : r.appliesAt start target = true) :
    r.edit?.isSome = true := by
  obtain ⟨-, e, he, -⟩ := appliesAt_iff.mp hr
  exact Option.isSome_of_eq_some he

/-- A list in the order of the targets is put together from those with each target. -/
theorem eq_append_of_targets {rs : List Replacement}
    (hsorted : rs.Pairwise fun r s => r.target = s.target ∨ r.target.Precedes s.target)
    (hedit : ∀ r ∈ rs, ∃ e, r.edit? = some e) :
    rs = rs.filter (·.target = .ending) ++ rs.filter (·.target = .all) ++
      rs.filter (·.target = .beginning) := by
  have hending := eq_filter_append_filter_not (p := fun r : Replacement => r.target = .ending) <|
    hsorted.imp fun {r s} horder hs => by
      rw [decide_eq_true_eq] at hs ⊢
      rw [hs] at horder
      exact horder.resolve_right Target.not_precedes_ending
  have hall := eq_filter_append_filter_not (p := fun r : Replacement => r.target = .all) <|
    (hsorted.filter fun r => !decide (r.target = .ending)).imp_of_mem fun {r s} hr _ horder hs => by
      rw [List.mem_filter, Bool.not_eq_true', decide_eq_false_iff_not] at hr
      rw [decide_eq_true_eq] at hs ⊢
      rw [hs] at horder
      exact horder.resolve_right fun hprecedes => hr.2 (Target.eq_ending_of_precedes_all hprecedes)
  rw [List.filter_filter, List.filter_filter] at hall
  rw [hall, ← List.append_assoc] at hending
  -- what is neither at the end of a range nor a whole range is at the beginning of one
  refine hending.trans (congrArg₂ _ (congrArg₂ _ rfl (List.filter_congr fun r _ => ?_))
    (List.filter_congr fun r hr => ?_))
  · cases r.target <;> simp
  · obtain ⟨e, he⟩ := hedit r hr
    rcases target_of_edit? he with htarget | htarget | htarget <;> simp [htarget]

end Replacement

namespace Fix

/-! ### The edits of a group -/

/-- The replacements of a group that have an edit, in the order in which they are applied. -/
def application (fixes : List Fix) : List Replacement :=
  ((replacementsOf fixes).filter (·.edit?.isSome)).mergeSort fun r s => r.ranked.before s.ranked

@[simp] theorem mem_application {fixes : List Fix} {r : Replacement} :
    r ∈ application fixes ↔ r ∈ replacementsOf fixes ∧ ∃ e, r.edit? = some e := by
  rw [application, List.mem_mergeSort, List.mem_filter, Option.isSome_iff_exists]

theorem filterMap_rankedEdit? (rs : List Replacement) :
    rs.filterMap Replacement.rankedEdit? =
      (rs.filter (·.edit?.isSome)).map Replacement.ranked := by
  induction rs with
  | nil => rfl
  | cons r rs ih =>
      cases he : r.edit? with
      | none =>
          have hranked : r.rankedEdit? = none := by rw [Replacement.rankedEdit?, he, Option.map_none]
          rw [List.filterMap_cons_none hranked, ih, List.filter_cons_of_neg (by simp [he])]
      | some e =>
          have hranked : r.rankedEdit? = some r.ranked := by
            rw [Replacement.rankedEdit?, he, Option.map_some, Replacement.ranked_of_edit? he]
          rw [List.filterMap_cons_some hranked, ih, List.filter_cons_of_pos (by simp [he]),
            List.map_cons]

theorem edits_eq_filterMap (fixes : List Fix) :
    edits fixes = (application fixes).filterMap Replacement.edit? := by
  have hranked : ∀ r ∈ application fixes, r.edit? = some r.ranked.edit := by
    intro r hr
    obtain ⟨-, e, he⟩ := mem_application.mp hr
    rw [Replacement.ranked_of_edit? he, he]
  calc edits fixes
      = ((application fixes).map Replacement.ranked).map RankedEdit.edit := by
        rw [edits, filterMap_rankedEdit?, application,
          List.map_mergeSort (f := Replacement.ranked) fun _ _ _ _ => rfl]
    _ = (application fixes).filterMap fun r => some r.ranked.edit := by
        rw [List.map_map, List.filterMap_eq_map']
        rfl
    _ = (application fixes).filterMap Replacement.edit? :=
        List.filterMap_congr fun r hr => (hranked r hr).symm

theorem application_perm (fixes : List Fix) :
    (application fixes).Perm ((replacementsOf fixes).filter (·.edit?.isSome)) :=
  List.mergeSort_perm _ _

theorem edits_perm (fixes : List Fix) :
    (edits fixes).Perm ((replacementsOf fixes).filterMap Replacement.edit?) := by
  have hperm := (application_perm fixes).filterMap Replacement.edit?
  have hedit : (fun r : Replacement => if r.edit?.isSome = true then r.edit? else none) =
      Replacement.edit? := by
    funext r
    cases r.edit? <;> rfl
  rwa [← edits_eq_filterMap, List.filterMap_filter, hedit] at hperm

theorem pairwise_application (fixes : List Fix) :
    (application fixes).Pairwise Replacement.AppliesBefore := by
  have hsorted := List.pairwise_mergeSort
    (fun r s u : Replacement => RankedEdit.before_trans r.ranked s.ranked u.ranked)
    (fun r s => RankedEdit.before_total r.ranked s.ranked)
    ((replacementsOf fixes).filter (·.edit?.isSome))
  exact hsorted.imp Replacement.appliesBefore_of_before

theorem pairwise_edits (fixes : List Fix) :
    (edits fixes).Pairwise fun e f => f.range.start ≤ e.range.start := by
  rw [edits_eq_filterMap, List.pairwise_filterMap]
  exact (pairwise_application fixes).imp fun hbefore e he f hf => (hbefore e f he hf).1

/-- Replacements with one target and one place keep the order of the leaves. -/
theorem application_stable (fixes : List Fix) (start : UInt32) (target : Target) :
    (application fixes).filter (·.appliesAt start target) =
      (replacementsOf fixes).filter (·.appliesAt start target) := by
  have hsorted : (application fixes).filter (·.appliesAt start target) =
      ((replacementsOf fixes).filter (·.edit?.isSome)).filter (·.appliesAt start target) :=
    filter_mergeSort (fun r s u => RankedEdit.before_trans r.ranked s.ranked u.ranked)
      (fun r s => RankedEdit.before_total r.ranked s.ranked)
      (fun r s => Replacement.before_of_appliesAt) _
  rw [hsorted, List.filter_filter]
  apply List.filter_congr
  intro r _
  cases happlies : r.appliesAt start target with
  | false => rfl
  | true => rw [Replacement.isSome_of_appliesAt happlies, Bool.and_self]

/-- What is applied at one place. -/
theorem application_startsAt (fixes : List Fix) (start : UInt32) :
    (application fixes).filter (·.startsAt start) =
      (replacementsOf fixes).filter (·.appliesAt start .ending) ++
        (replacementsOf fixes).filter (·.appliesAt start .all) ++
        (replacementsOf fixes).filter (·.appliesAt start .beginning) := by
  have hstart : ∀ r ∈ (application fixes).filter (·.startsAt start),
      ∃ e, r.edit? = some e ∧ e.range.start = start := by
    intro r hr
    exact Replacement.startsAt_iff.mp (List.mem_filter.mp hr).2
  have hsorted : ((application fixes).filter (·.startsAt start)).Pairwise fun r s =>
      r.target = s.target ∨ r.target.Precedes s.target := by
    apply ((pairwise_application fixes).filter _).imp_of_mem
    intro r s hr hs hbefore
    obtain ⟨e, he, hestart⟩ := hstart r hr
    obtain ⟨f, hf, hfstart⟩ := hstart s hs
    exact (hbefore e f he hf).2 (hestart.trans hfstart.symm)
  rw [Replacement.eq_append_of_targets hsorted fun r hr => (hstart r hr).imp fun _ => And.left]
  simp only [List.filter_filter, ← application_stable]
  rfl

/-- One group, at any depth, is replaced by its children in place. -/
inductive Dissolves : List Fix → List Fix → Prop
  | composite (before after : List Fix) (name family : Option String) (fixes : List Fix) :
      Dissolves (before ++ .composite name family fixes :: after) (before ++ fixes ++ after)
  | alternatives (before after : List Fix) (name family : Option String) (fixes : List Fix) :
      Dissolves (before ++ .alternatives name family fixes :: after) (before ++ fixes ++ after)
  | inComposite (before after : List Fix) (name family : Option String) {fixes fixes' : List Fix}
      (hinner : Dissolves fixes fixes') :
      Dissolves (before ++ .composite name family fixes :: after)
        (before ++ .composite name family fixes' :: after)
  | inAlternatives (before after : List Fix) (name family : Option String) {fixes fixes' : List Fix}
      (hinner : Dissolves fixes fixes') :
      Dissolves (before ++ .alternatives name family fixes :: after)
        (before ++ .alternatives name family fixes' :: after)

theorem Dissolves.replacementsOf_eq {fixes fixes' : List Fix} (hdissolves : Dissolves fixes fixes') :
    replacementsOf fixes' = replacementsOf fixes := by
  induction hdissolves with
  | composite | alternatives => simp
  | inComposite _ _ _ _ _ ih | inAlternatives _ _ _ _ _ ih => simp [ih]

mutual

/-- A fix in a group can be dissolved into its leaves. -/
theorem dissolves_replacements : ∀ (fix : Fix) (before after : List Fix),
    Relation.ReflTransGen Dissolves (before ++ fix :: after)
      (before ++ (replacements fix).map .replace ++ after)
  | .replace r, before, after => by
      simp only [replacements, List.map_cons, List.map_nil, List.append_assoc, List.singleton_append]
      exact .refl
  | .composite name family fixes, before, after => by
      rw [replacements]
      exact .head (.composite before after name family fixes)
        (dissolves_replacementsOf fixes before after)
  | .alternatives name family fixes, before, after => by
      rw [replacements]
      exact .head (.alternatives before after name family fixes)
        (dissolves_replacementsOf fixes before after)

theorem dissolves_replacementsOf : ∀ (fixes before after : List Fix),
    Relation.ReflTransGen Dissolves (before ++ fixes ++ after)
      (before ++ (replacementsOf fixes).map .replace ++ after)
  | [], before, after => by
      rw [replacementsOf, List.map_nil]
  | fix :: fixes, before, after => by
      have hfirst := dissolves_replacements fix before (fixes ++ after)
      have hrest := dissolves_replacementsOf fixes (before ++ (replacements fix).map .replace) after
      rw [replacementsOf, List.map_append]
      simp only [List.append_assoc, List.cons_append] at hfirst hrest ⊢
      exact hfirst.trans hrest

end

theorem bracketedRange?_eq_some_iff (fixes : List Fix) (range : TextRange) :
    bracketedRange? fixes = some range ↔
      replacementsOf fixes ≠ [] ∧ ∀ r ∈ replacementsOf fixes, r.range = some range := by
  rw [bracketedRange?]
  cases replacementsOf fixes with
  | nil => simp
  | cons first rest =>
      simp only [List.all_eq_true, decide_eq_true_eq, List.forall_mem_cons, ne_eq, reduceCtorEq,
        not_false_eq_true, true_and]
      split
      · rename_i hall
        exact ⟨fun hfirst => ⟨hfirst, fun r hr => (hall r hr).trans hfirst⟩, And.left⟩
      · rename_i hdiffer
        refine iff_of_false (fun h => nomatch h) fun ⟨hfirst, hrest⟩ => hdiffer fun r hr => ?_
        rw [hrest r hr, hfirst]

/-- **The edits of a group.** They are the edits of its leaves, each once, ordered by where they start,
then by target, then as the leaves are. Dissolving groups into their children, at any depth, changes
neither the leaves nor the shared range nor the edits, and ends in the leaves themselves. A group has a
shared range exactly if it has leaves and every leaf has that range. -/
theorem edits_ordered (fixes : List Fix) :
    (edits fixes).Perm ((replacementsOf fixes).filterMap Replacement.edit?) ∧
    ((edits fixes).Pairwise fun e f => f.range.start ≤ e.range.start) ∧
    (∃ order : List Replacement, edits fixes = order.filterMap Replacement.edit? ∧
      order.Perm ((replacementsOf fixes).filter (·.edit?.isSome)) ∧
      order.Pairwise Replacement.AppliesBefore ∧
      ∀ start target, order.filter (·.appliesAt start target) =
        (replacementsOf fixes).filter (·.appliesAt start target)) ∧
    (∀ other, Dissolves fixes other → replacementsOf other = replacementsOf fixes ∧
      bracketedRange? other = bracketedRange? fixes ∧ edits other = edits fixes) ∧
    Relation.ReflTransGen Dissolves fixes ((replacementsOf fixes).map .replace) ∧
    ∀ range, bracketedRange? fixes = some range ↔
      replacementsOf fixes ≠ [] ∧ ∀ r ∈ replacementsOf fixes, r.range = some range := by
  refine ⟨edits_perm fixes, pairwise_edits fixes, ⟨application fixes, edits_eq_filterMap fixes,
    application_perm fixes, pairwise_application fixes, application_stable fixes⟩, ?_, ?_,
    bracketedRange?_eq_some_iff fixes⟩
  · intro other hdissolves
    have hleaves := hdissolves.replacementsOf_eq
    refine ⟨hleaves, ?_, ?_⟩
    · rw [bracketedRange?, bracketedRange?, hleaves]
    · rw [edits, edits, hleaves]
  · have hdissolves := dissolves_replacementsOf fixes [] []
    rwa [List.nil_append, List.nil_append, List.append_nil, List.append_nil] at hdissolves

/-- A text before a range and, in a group of its own, one behind it. -/
def groupInGroup : List Fix :=
  [.composite none none
    [.replace { Replacement.ofTarget .beginning with replacement := some "(", range := some ⟨2, 4⟩ },
      .alternatives none none
        [.replace { Replacement.ofTarget .ending with replacement := some ")", range := some ⟨2, 4⟩ }]]]

/-- The same texts in one group. -/
def groupOfTwo : List Fix :=
  [.composite none none
    [.replace { Replacement.ofTarget .beginning with replacement := some "(", range := some ⟨2, 4⟩ },
      .replace { Replacement.ofTarget .ending with replacement := some ")", range := some ⟨2, 4⟩ }]]

theorem edits_ordered_groupInGroup :
    Dissolves groupInGroup groupOfTwo ∧ edits groupOfTwo = edits groupInGroup ∧
      bracketedRange? groupInGroup = some ⟨2, 4⟩ := by
  obtain ⟨-, -, -, hdissolve, -, hrange⟩ := edits_ordered groupInGroup
  have hdissolves : Dissolves groupInGroup groupOfTwo :=
    .inComposite [] [] none none (.alternatives [_] [] none none [_])
  obtain ⟨-, -, hedits⟩ := hdissolve groupOfTwo hdissolves
  exact ⟨hdissolves, hedits, (hrange ⟨2, 4⟩).mpr ⟨by decide, by decide⟩⟩

end Fix

end Uncaught
