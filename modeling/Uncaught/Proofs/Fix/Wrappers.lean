import Mathlib.Data.List.Forall2
import Uncaught.Fix.Offer
import Uncaught.Proofs.Fix.SharedRange

/-!
Wrappers around several ranges of one text. The edits of a group of wrappers put every text at its place,
and at one place the texts for beginnings before the texts for ends. That wraps the ranges as long as no
range begins where another ends. At a place where one does the two wrappers cross: the one behind opens
before the one in front is closed.
-/

namespace Uncaught

open TextEdit (applyAll insertion reversedBytes reversedBytes_append textAt)

/-- A text to put before a range and one to put behind it. -/
structure Wrapper where
  before : String
  after : String
  range : TextRange
  deriving DecidableEq, Repr

namespace Wrapper

/-- The ranges of two wrappers have nothing in common. One may begin where the other ends. -/
def Apart (w v : Wrapper) : Prop :=
  w.range.stop ≤ v.range.start ∨ v.range.stop ≤ w.range.start

instance (w v : Wrapper) : Decidable (w.Apart v) := inferInstanceAs (Decidable (_ ∨ _))

/-- The bytes from a place on, with the ranges of wrappers wrapped that are listed from the first range
to the last. -/
def wrapFrom (bytes : List UInt8) : Nat → List Wrapper → List UInt8
  | place, [] => bytes.drop place
  | place, w :: ws =>
    (bytes.drop place).take (w.range.start.toNat - place) ++ w.before.toUTF8.toList ++
      (bytes.drop w.range.start.toNat).take (w.range.stop.toNat - w.range.start.toNat) ++
      w.after.toUTF8.toList ++ wrapFrom bytes w.range.stop.toNat ws

/-- Wrappers from the first range to the last. -/
def inOrder (ws : List Wrapper) : List Wrapper :=
  ws.mergeSort fun w v => w.range.start ≤ v.range.start

/-- The bytes with the range of every wrapper wrapped. -/
def wrapAll (bytes : List UInt8) (ws : List Wrapper) : List UInt8 := wrapFrom bytes 0 (inOrder ws)

section TextsAt

variable {place : Wrapper → UInt32} {text : Wrapper → String} {ws ws' : List Wrapper} {w : Wrapper}
  {n : Nat}

/-- The texts that wrappers have at a place. -/
def textsAt (place : Wrapper → UInt32) (text : Wrapper → String) (ws : List Wrapper) (n : Nat) :
    List UInt8 :=
  reversedBytes ((ws.filter fun w => (place w).toNat = n).map text)

theorem textsAt_of_forall_ne (hne : ∀ w ∈ ws, (place w).toNat ≠ n) : textsAt place text ws n = [] := by
  have hnone : (ws.filter fun w => (place w).toNat = n) = [] :=
    List.filter_eq_nil_iff.mpr fun w hw => by simpa using hne w hw
  rw [textsAt, hnone]
  rfl

theorem textsAt_cons_self (hn : (place w).toNat = n) :
    textsAt place text (w :: ws) n = textsAt place text ws n ++ (text w).toUTF8.toList := by
  simp [textsAt, hn]

theorem textsAt_cons_of_ne (hn : (place w).toNat ≠ n) :
    textsAt place text (w :: ws) n = textsAt place text ws n := by
  simp [textsAt, hn]

/-- Where places differ, a place has the text of one wrapper. -/
theorem textsAt_of_mem (hdistinct : ws.Pairwise fun w v => place w ≠ place v) (hw : w ∈ ws) :
    textsAt place text ws (place w).toNat = (text w).toUTF8.toList := by
  induction ws with
  | nil => cases hw
  | cons v ws ih =>
      obtain ⟨hfirst, hdistinct⟩ := List.pairwise_cons.mp hdistinct
      rcases List.mem_cons.mp hw with rfl | hw
      · have hrest : textsAt place text ws (place w).toNat = [] :=
          textsAt_of_forall_ne fun u hu heq => hfirst u hu (UInt32.toNat_inj.mp heq.symm)
        rw [textsAt_cons_self rfl, hrest, List.nil_append]
      · rw [textsAt_cons_of_ne fun heq => hfirst w hw (UInt32.toNat_inj.mp heq), ih hdistinct hw]

theorem textsAt_perm (hperm : ws'.Perm ws) (hdistinct : ws.Pairwise fun w v => place w ≠ place v) :
    textsAt place text ws' = textsAt place text ws := by
  have hdistinct' : ws'.Pairwise fun w v => place w ≠ place v :=
    (hperm.pairwise_iff Ne.symm).mpr hdistinct
  funext n
  by_cases hex : ∃ w ∈ ws, (place w).toNat = n
  · obtain ⟨w, hw, rfl⟩ := hex
    rw [textsAt_of_mem hdistinct hw, textsAt_of_mem hdistinct' (hperm.mem_iff.mpr hw)]
  · have hne : ∀ w ∈ ws, (place w).toNat ≠ n := fun w hw heq => hex ⟨w, hw, heq⟩
    rw [textsAt_of_forall_ne hne,
      textsAt_of_forall_ne fun w hw => hne w (hperm.mem_iff.mp hw)]

end TextsAt

variable {bytes : List UInt8} {ws : List Wrapper}

/-- What the wrappers that begin at a place put there. -/
def beginsAt : List Wrapper → Nat → List UInt8 := textsAt (·.range.start) (·.before)

/-- What the wrappers that end at a place put there. -/
def endsAt : List Wrapper → Nat → List UInt8 := textsAt (·.range.stop) (·.after)

theorem pairwise_ne (hranges : ∀ w ∈ ws, w.range.start < w.range.stop) (hapart : ws.Pairwise Apart) :
    ws.Pairwise fun w v => w.range.start ≠ v.range.start ∧ w.range.stop ≠ v.range.stop := by
  apply hapart.imp_of_mem
  intro w v hw hv hapart
  have hwlt := UInt32.lt_iff_toNat_lt.mp (hranges w hw)
  have hvlt := UInt32.lt_iff_toNat_lt.mp (hranges v hv)
  rw [Apart, UInt32.le_iff_toNat_le, UInt32.le_iff_toNat_le] at hapart
  rw [ne_eq, ne_eq, ← UInt32.toNat_inj, ← UInt32.toNat_inj]
  omega

theorem inOrder_perm (ws : List Wrapper) : (inOrder ws).Perm ws := List.mergeSort_perm _ _

theorem pairwise_inOrder (hranges : ∀ w ∈ ws, w.range.start < w.range.stop)
    (hapart : ws.Pairwise Apart) :
    (inOrder ws).Pairwise fun w v => w.range.stop ≤ v.range.start := by
  have hsorted : (inOrder ws).Pairwise fun w v => decide (w.range.start ≤ v.range.start) = true := by
    apply List.pairwise_mergeSort
    · intro w v u hwv hvu
      rw [decide_eq_true_eq] at hwv hvu ⊢
      exact UInt32.le_trans hwv hvu
    · intro w v
      rw [Bool.or_eq_true, decide_eq_true_eq, decide_eq_true_eq]
      exact UInt32.le_total _ _
  have hapart' : (inOrder ws).Pairwise Apart :=
    ((inOrder_perm ws).pairwise_iff Or.symm).mpr hapart
  apply (hsorted.and hapart').imp_of_mem
  intro w v hw hv ⟨hle, hapart⟩
  have hvlt := UInt32.lt_iff_toNat_lt.mp (hranges v ((inOrder_perm ws).mem_iff.mp hv))
  rw [decide_eq_true_eq, UInt32.le_iff_toNat_le] at hle
  rw [Apart, UInt32.le_iff_toNat_le, UInt32.le_iff_toNat_le] at hapart
  rw [UInt32.le_iff_toNat_le]
  omega

/-- The bytes up to the end of a range that is wrapped. -/
theorem weave_range {inserted rest : Nat → List UInt8} {place start stop : Nat}
    {before after : List UInt8} (hplace : place ≤ start) (hlt : start < stop)
    (hin : stop ≤ bytes.length)
    (hnone : ∀ q, place ≤ q → q < stop → q ≠ start → inserted q = [])
    (hstart : inserted start = before) (hstop : inserted stop = after ++ rest stop)
    (hrest : ∀ q, stop < q → inserted q = rest q) :
    weave inserted place (bytes.drop place) =
      (bytes.drop place).take (start - place) ++ before ++ (bytes.drop start).take (stop - start) ++
        after ++ weave rest stop (bytes.drop stop) := by
  -- the texts without the one that opens the range
  let opened : Nat → List UInt8 := fun q => if q = start then [] else inserted q
  have hfront : weave inserted place (bytes.drop place) =
      (bytes.drop place).take (start - place) ++ weave inserted start (bytes.drop start) := by
    apply weave_drop hplace (by omega)
    intro q hq hlast
    exact hnone q hq (by omega) (by omega)
  have hopen : weave inserted start (bytes.drop start) =
      before ++ weave opened start (bytes.drop start) := by
    apply weave_first
    · rw [hstart, show opened start = [] from if_pos rfl, List.append_nil]
    · intro q hq
      exact (if_neg (by omega)).symm
  have hmiddle : weave opened start (bytes.drop start) =
      (bytes.drop start).take (stop - start) ++ weave opened stop (bytes.drop stop) := by
    apply weave_drop (Nat.le_of_lt hlt) hin
    intro q hq hlast
    by_cases hne : q = start
    · exact if_pos hne
    · exact (if_neg hne).trans (hnone q (by omega) hlast hne)
  have hclose : weave opened stop (bytes.drop stop) = after ++ weave rest stop (bytes.drop stop) := by
    apply weave_first
    · exact (if_neg (by omega)).trans hstop
    · intro q hq
      exact (if_neg (by omega)).trans (hrest q hq)
  rw [hfront, hopen, hmiddle, hclose]
  simp only [List.append_assoc]

/-- Wrapping puts the text that closes a range before the text that opens the next. -/
theorem wrapFrom_eq_weave {place : Nat}
    (hsorted : ws.Pairwise fun w v => w.range.stop ≤ v.range.start)
    (hranges : ∀ w ∈ ws, w.range.start < w.range.stop ∧ w.range.stop.toNat ≤ bytes.length)
    (hplace : ∀ w ∈ ws, place ≤ w.range.start.toNat) :
    wrapFrom bytes place ws =
      weave (fun n => endsAt ws n ++ beginsAt ws n) place (bytes.drop place) := by
  induction ws generalizing place with
  | nil => exact (weave_of_none fun _ _ _ => rfl).symm
  | cons w ws ih =>
      obtain ⟨hfirst, hsorted⟩ := List.pairwise_cons.mp hsorted
      obtain ⟨⟨hlt, hin⟩, hranges⟩ := List.forall_mem_cons.mp hranges
      have hplace := hplace w List.mem_cons_self
      rw [UInt32.lt_iff_toNat_lt] at hlt
      have hbehind : ∀ v ∈ ws, w.range.stop.toNat ≤ v.range.start.toNat ∧
          v.range.start.toNat < v.range.stop.toNat := by
        intro v hv
        exact ⟨UInt32.le_iff_toNat_le.mp (hfirst v hv), UInt32.lt_iff_toNat_lt.mp (hranges v hv).1⟩
      -- the wrappers that follow have nothing before the end of this one, and no end there
      have hbegins : ∀ q, q < w.range.stop.toNat → beginsAt ws q = [] := by
        intro q hq
        exact textsAt_of_forall_ne fun v hv => by have := hbehind v hv; omega
      have hends : ∀ q, q ≤ w.range.stop.toNat → endsAt ws q = [] := by
        intro q hq
        exact textsAt_of_forall_ne fun v hv => by have := hbehind v hv; omega
      have hbeginsCons : ∀ q, w.range.start.toNat ≠ q → beginsAt (w :: ws) q = beginsAt ws q :=
        fun q hq => textsAt_cons_of_ne hq
      have hendsCons : ∀ q, w.range.stop.toNat ≠ q → endsAt (w :: ws) q = endsAt ws q :=
        fun q hq => textsAt_cons_of_ne hq
      have hopen : beginsAt (w :: ws) w.range.start.toNat = w.before.toUTF8.toList := by
        rw [beginsAt, textsAt_cons_self rfl, ← beginsAt, hbegins _ hlt, List.nil_append]
      have hclose : endsAt (w :: ws) w.range.stop.toNat = w.after.toUTF8.toList := by
        rw [endsAt, textsAt_cons_self rfl, ← endsAt, hends _ (Nat.le_refl _), List.nil_append]
      rw [wrapFrom, ih hsorted hranges fun v hv => (hbehind v hv).1]
      symm
      apply weave_range hplace hlt hin
      · intro q _ hstop hstart
        rw [hendsCons q (by omega), hbeginsCons q hstart.symm, hends q (by omega), hbegins q hstop]
        rfl
      · rw [hendsCons _ (by omega), hends _ (by omega), hopen, List.nil_append]
      · rw [hclose, hbeginsCons _ (by omega), hends _ (Nat.le_refl _), List.nil_append]
      · intro q hq
        rw [hendsCons q (by omega), hbeginsCons q (by omega)]

theorem wrapAll_eq_weave
    (hranges : ∀ w ∈ ws, w.range.start < w.range.stop ∧ w.range.stop.toNat ≤ bytes.length)
    (hapart : ws.Pairwise Apart) :
    wrapAll bytes ws = weave (fun n => endsAt ws n ++ beginsAt ws n) 0 bytes := by
  have hlt : ∀ w ∈ ws, w.range.start < w.range.stop := fun w hw => (hranges w hw).1
  have hne := pairwise_ne hlt hapart
  have hends : endsAt (inOrder ws) = endsAt ws :=
    textsAt_perm (inOrder_perm ws) (hne.imp And.right)
  have hbegins : beginsAt (inOrder ws) = beginsAt ws :=
    textsAt_perm (inOrder_perm ws) (hne.imp And.left)
  rw [wrapAll, wrapFrom_eq_weave (pairwise_inOrder hlt hapart)
    (fun w hw => hranges w ((inOrder_perm ws).mem_iff.mp hw)) (fun w _ => Nat.zero_le _), hends,
    hbegins, List.drop_zero]

/-- What goes before a range comes before what goes behind another only if it makes no difference. -/
theorem weave_crossed_iff
    (hranges : ∀ w ∈ ws, w.range.start < w.range.stop ∧ w.range.stop.toNat ≤ bytes.length)
    (hapart : ws.Pairwise Apart) :
    weave (fun n => beginsAt ws n ++ endsAt ws n) 0 bytes =
        weave (fun n => endsAt ws n ++ beginsAt ws n) 0 bytes ↔
      ∀ w ∈ ws, ∀ v ∈ ws, w.range.stop = v.range.start →
        v.before.toUTF8.toList ++ w.after.toUTF8.toList =
          w.after.toUTF8.toList ++ v.before.toUTF8.toList := by
  have hne := pairwise_ne (fun w hw => (hranges w hw).1) hapart
  have hbegins : ∀ v ∈ ws, beginsAt ws v.range.start.toNat = v.before.toUTF8.toList :=
    fun v hv => textsAt_of_mem (hne.imp And.left) hv
  have hends : ∀ w ∈ ws, endsAt ws w.range.stop.toNat = w.after.toUTF8.toList :=
    fun w hw => textsAt_of_mem (hne.imp And.right) hw
  rw [weave_inj fun q => by rw [List.length_append, List.length_append, Nat.add_comm]]
  constructor
  · intro hsame w hw v hv htouch
    have hplace := hsame w.range.stop.toNat (Nat.zero_le _) (by have := (hranges w hw).2; omega)
    rwa [hends w hw, htouch, hbegins v hv] at hplace
  · intro hexchange q _ _
    by_cases hw : ∃ w ∈ ws, w.range.stop.toNat = q
    · by_cases hv : ∃ v ∈ ws, v.range.start.toNat = q
      · obtain ⟨w, hw, rfl⟩ := hw
        obtain ⟨v, hv, htouch⟩ := hv
        have hplace := hexchange w hw v hv (UInt32.toNat_inj.mp htouch.symm)
        rwa [hends w hw, ← htouch, hbegins v hv]
      · have hnone : beginsAt ws q = [] := textsAt_of_forall_ne fun v hmem heq => hv ⟨v, hmem, heq⟩
        rw [hnone, List.nil_append, List.append_nil]
    · have hnone : endsAt ws q = [] := textsAt_of_forall_ne fun w hmem heq => hw ⟨w, hmem, heq⟩
      rw [hnone, List.nil_append, List.append_nil]

/-- The edit of a wrapper for a target. -/
def edit? (w : Wrapper) : Target → Option TextEdit
  | .beginning => some (insertion w.range.start w.before)
  | .ending => some (insertion w.range.stop w.after)
  | .all | .text _ | .pattern _ | .select _ => none

end Wrapper

/-- What a leaf contributes for one target at one place. -/
theorem Replacement.filterMap_edit?_leaf {r : Replacement} {e : TextEdit} (he : r.edit? = some e)
    {start : UInt32} {target : Target} :
    ([r].filter (·.appliesAt start target)).filterMap Replacement.edit? =
      if r.target = target ∧ e.range.start = start then [e] else [] := by
  by_cases happlies : r.target = target ∧ e.range.start = start
  · rw [if_pos happlies, List.filter_cons_of_pos
      (appliesAt_iff.mpr ⟨happlies.1, e, he, happlies.2⟩), List.filter_nil,
      List.filterMap_cons_some he, List.filterMap_nil]
  · rw [if_neg happlies, List.filter_cons_of_neg]
    · rfl
    · intro hr
      obtain ⟨htarget, f, hf, hstart⟩ := appliesAt_iff.mp hr
      cases he.symm.trans hf
      exact happlies ⟨htarget, hstart⟩

namespace Fix

variable {fix : Fix} {fixes : List Fix} {w : Wrapper} {ws : List Wrapper} {bytes : List UInt8}

/-- A fix is a group of two replacements on the range of a wrapper, one for its beginning and one for its
end. -/
def IsWrapper (fix : Fix) (w : Wrapper) : Prop :=
  ∃ name family first last,
    (fix = .composite name family [.replace first, .replace last] ∨
      fix = .composite name family [.replace last, .replace first]) ∧
    first.target = .beginning ∧ first.range = some w.range ∧ first.replacement.getD "" = w.before ∧
    last.target = .ending ∧ last.range = some w.range ∧ last.replacement.getD "" = w.after

/-! ### The edits of wrappers -/

/-- The leaves of a wrapper are one for each of its edits. -/
theorem IsWrapper.exists_leaves (hfix : fix.IsWrapper w) :
    ∃ first last, (replacements fix = [first, last] ∨ replacements fix = [last, first]) ∧
      first.target = .beginning ∧ first.edit? = some (insertion w.range.start w.before) ∧
      last.target = .ending ∧ last.edit? = some (insertion w.range.stop w.after) := by
  obtain ⟨name, family, first, last, hfix, hfirst, hfirstRange, hbefore, hlast, hlastRange, hafter⟩ := hfix
  refine ⟨first, last, ?_, hfirst, ?_, hlast, ?_⟩
  · rcases hfix with rfl | rfl
    · exact Or.inl rfl
    · exact Or.inr rfl
  · rw [Replacement.edit?_of_place? hfirstRange (by rw [hfirst]; rfl), hbefore]
    rfl
  · rw [Replacement.edit?_of_place? hlastRange (by rw [hlast]; rfl), hafter]
    rfl

theorem IsWrapper.filterMap_edit? (hfix : fix.IsWrapper w) (start : UInt32) (target : Target) :
    ((replacements fix).filter (·.appliesAt start target)).filterMap Replacement.edit? =
      ((w.edit? target).filter (·.range.start = start)).toList := by
  obtain ⟨first, last, hleaves, hfirst, hbefore, hlast, hafter⟩ := hfix.exists_leaves
  have hpair : ∀ r s : Replacement,
      (([r, s].filter (·.appliesAt start target)).filterMap Replacement.edit?) =
        (([r].filter (·.appliesAt start target)).filterMap Replacement.edit?) ++
          (([s].filter (·.appliesAt start target)).filterMap Replacement.edit?) := by
    intro r s
    rw [← List.filterMap_append, ← List.filter_append, List.singleton_append]
  rcases hleaves with hleaves | hleaves
  all_goals
    rw [hleaves, hpair, Replacement.filterMap_edit?_leaf hbefore, Replacement.filterMap_edit?_leaf hafter,
      hfirst, hlast]
    cases target <;> simp [Wrapper.edit?, insertion, Option.filter_some, apply_ite Option.toList]

theorem filterMap_edit?_of_wrappers (hfixes : List.Forall₂ IsWrapper fixes ws) (start : UInt32)
    (target : Target) :
    ((replacementsOf fixes).filter (·.appliesAt start target)).filterMap Replacement.edit? =
      ws.flatMap fun w => ((w.edit? target).filter (·.range.start = start)).toList := by
  induction hfixes with
  | nil => rfl
  | cons hfix _ ih =>
      rw [replacementsOf, List.filter_append, List.filterMap_append, hfix.filterMap_edit?, ih,
        List.flatMap_cons]

/-- The texts that a group of wrappers has for one target at one place. -/
theorem reversedBytes_of_wrappers {target : Target} {place : Wrapper → UInt32} {text : Wrapper → String}
    (hfixes : List.Forall₂ IsWrapper fixes ws)
    (hedit : ∀ w : Wrapper, w.edit? target = some (insertion (place w) (text w))) (start : UInt32) :
    reversedBytes ((((replacementsOf fixes).filter (·.appliesAt start target)).filterMap
      Replacement.edit?).map TextEdit.text) = Wrapper.textsAt place text ws start.toNat := by
  rw [filterMap_edit?_of_wrappers hfixes]
  clear hfixes
  induction ws with
  | nil => rfl
  | cons w ws ih =>
      rw [List.flatMap_cons, List.map_append, reversedBytes_append, ih, hedit]
      by_cases hstart : place w = start
      · rw [Wrapper.textsAt_cons_self (congrArg UInt32.toNat hstart)]
        simp [Option.filter_some, insertion, hstart, reversedBytes]
      · rw [Wrapper.textsAt_cons_of_ne fun heq => hstart (UInt32.toNat_inj.mp heq)]
        simp [Option.filter_some, insertion, hstart, reversedBytes]

theorem filter_edits (fixes : List Fix) (start : UInt32) :
    (edits fixes).filter (·.range.start.toNat = start.toNat) =
      ((application fixes).filter (·.startsAt start)).filterMap Replacement.edit? := by
  rw [edits_eq_filterMap, List.filter_filterMap, List.filterMap_filter]
  apply List.filterMap_congr
  intro r _
  rw [Replacement.startsAt]
  cases r.edit? with
  | none => rfl
  | some e => simp [UInt32.toNat_inj, Option.filter_some]

/-- At every place the texts for beginnings come before the texts for ends. -/
theorem textAt_edits (hfixes : List.Forall₂ IsWrapper fixes ws) (n : Nat) :
    textAt (edits fixes) n = Wrapper.beginsAt ws n ++ Wrapper.endsAt ws n := by
  by_cases hex : ∃ start : UInt32, start.toNat = n
  · obtain ⟨start, rfl⟩ := hex
    have hall : ((replacementsOf fixes).filter (·.appliesAt start .all)).filterMap
        Replacement.edit? = [] := by
      rw [filterMap_edit?_of_wrappers hfixes]
      exact List.flatMap_eq_nil_iff.mpr fun w _ => rfl
    rw [textAt, filter_edits, application_startsAt, List.filterMap_append, List.filterMap_append, hall,
      List.append_nil, List.map_append, reversedBytes_append,
      reversedBytes_of_wrappers hfixes (fun _ => rfl), reversedBytes_of_wrappers hfixes (fun _ => rfl)]
    rfl
  · have hnone : (edits fixes).filter (·.range.start.toNat = n) = [] :=
      List.filter_eq_nil_iff.mpr fun e _ heq => hex ⟨_, decide_eq_true_eq.mp heq⟩
    have hbegins : Wrapper.beginsAt ws n = [] :=
      Wrapper.textsAt_of_forall_ne fun w _ heq => hex ⟨_, heq⟩
    have hends : Wrapper.endsAt ws n = [] :=
      Wrapper.textsAt_of_forall_ne fun w _ heq => hex ⟨_, heq⟩
    rw [textAt, hnone, hbegins, hends]
    rfl

theorem exists_insertion_of_mem_edits (hfixes : List.Forall₂ IsWrapper fixes ws) {e : TextEdit}
    (he : e ∈ edits fixes) :
    ∃ w ∈ ws, e = insertion w.range.start w.before ∨ e = insertion w.range.stop w.after := by
  rw [(edits_perm fixes).mem_iff, List.mem_filterMap] at he
  obtain ⟨r, hr, he⟩ := he
  induction hfixes with
  | nil => cases hr
  | cons hfix _ ih =>
      rw [replacementsOf, List.mem_append] at hr
      rcases hr with hr | hr
      · obtain ⟨first, last, hleaves, -, hbefore, -, hafter⟩ := hfix.exists_leaves
        have hmem : r = first ∨ r = last := by
          rcases hleaves with hleaves | hleaves
          · simpa [hleaves] using hr
          · simpa [hleaves, or_comm] using hr
        refine ⟨_, List.mem_cons_self, ?_⟩
        rcases hmem with rfl | rfl
        · exact Or.inl (Option.some.inj (he.symm.trans hbefore))
        · exact Or.inr (Option.some.inj (he.symm.trans hafter))
      · obtain ⟨w, hw, hedit⟩ := ih hr
        exact ⟨w, List.mem_cons_of_mem _ hw, hedit⟩

/-- What a group of wrappers makes of a text, whether or not their ranges overlap. -/
theorem applyAll_edits_of_wrappers (hfixes : List.Forall₂ IsWrapper fixes ws)
    (hranges : ∀ w ∈ ws, w.range.start ≤ w.range.stop ∧ w.range.stop.toNat ≤ bytes.length) :
    applyAll (edits fixes) bytes =
      weave (fun n => Wrapper.beginsAt ws n ++ Wrapper.endsAt ws n) 0 bytes := by
  rw [← funext (textAt_edits hfixes)]
  apply TextEdit.applyAll_eq_weave (pairwise_edits fixes)
  · intro e he
    obtain ⟨w, -, rfl | rfl⟩ := exists_insertion_of_mem_edits hfixes he
    · rfl
    · rfl
  · intro e he
    obtain ⟨w, hw, hedit⟩ := exists_insertion_of_mem_edits hfixes he
    obtain ⟨hle, hin⟩ := hranges w hw
    rw [UInt32.le_iff_toNat_le] at hle
    rcases hedit with rfl | rfl
    · exact Nat.le_trans hle hin
    · exact hin

/-- **Wrappers around disjoint ranges.** The edits of a group of wrappers, applied one after another,
put at each place the texts for beginnings before the texts for ends. So every range comes out wrapped
exactly if, wherever one range ends and another begins, the two texts there can be exchanged; in
particular, if no range begins where another ends. -/
theorem wrappers_edits_apply (hfixes : List.Forall₂ IsWrapper fixes ws)
    (hranges : ∀ w ∈ ws, w.range.start < w.range.stop ∧ w.range.stop.toNat ≤ bytes.length)
    (hapart : ws.Pairwise Wrapper.Apart) :
    applyAll (edits fixes) bytes =
      weave (fun n => Wrapper.beginsAt ws n ++ Wrapper.endsAt ws n) 0 bytes ∧
    (applyAll (edits fixes) bytes = Wrapper.wrapAll bytes ws ↔
      ∀ w ∈ ws, ∀ v ∈ ws, w.range.stop = v.range.start →
        v.before.toUTF8.toList ++ w.after.toUTF8.toList =
          w.after.toUTF8.toList ++ v.before.toUTF8.toList) := by
  have happly := applyAll_edits_of_wrappers hfixes fun w hw =>
    ⟨UInt32.le_of_lt (hranges w hw).1, (hranges w hw).2⟩
  refine ⟨happly, ?_⟩
  rw [happly, Wrapper.wrapAll_eq_weave hranges hapart]
  exact Wrapper.weave_crossed_iff hranges hapart

theorem isWrapper_wrapper (name before after : String) (range : TextRange) :
    (wrapper name before after range).IsWrapper ⟨before, after, range⟩ :=
  ⟨_, _, _, _, Or.inl rfl, rfl, rfl, rfl, rfl, rfl, rfl⟩

/-- Two ranges with a byte between them, the last one listed first. -/
theorem wrappers_edits_apply_separate :
    applyAll (edits [wrapper "Index" "[" "]" ⟨3, 4⟩, wrapper "Group" "(" ")" ⟨0, 2⟩])
      "abcd".toUTF8.toList = "(ab)c[d]".toUTF8.toList := by
  have hfixes : List.Forall₂ IsWrapper
      [wrapper "Index" "[" "]" ⟨3, 4⟩, wrapper "Group" "(" ")" ⟨0, 2⟩]
      [⟨"[", "]", ⟨3, 4⟩⟩, ⟨"(", ")", ⟨0, 2⟩⟩] :=
    .cons (isWrapper_wrapper _ _ _ _) (.cons (isWrapper_wrapper _ _ _ _) .nil)
  have hranges : ∀ w ∈ [(⟨"[", "]", ⟨3, 4⟩⟩ : Wrapper), ⟨"(", ")", ⟨0, 2⟩⟩],
      w.range.start < w.range.stop ∧ w.range.stop.toNat ≤ "abcd".toUTF8.toList.length := by
    decide +kernel
  have hapart : [(⟨"[", "]", ⟨3, 4⟩⟩ : Wrapper), ⟨"(", ")", ⟨0, 2⟩⟩].Pairwise Wrapper.Apart := by
    decide
  obtain ⟨-, hwraps⟩ := wrappers_edits_apply hfixes hranges hapart
  rw [hwraps.mpr (by decide +kernel), Wrapper.wrapAll_eq_weave hranges hapart]
  decide +kernel

/-- Two ranges that touch, in a text that both lie in: the second wrapper opens inside the first. -/
theorem touching_wrappers_cross :
    let fixes := [wrapper "Group" "(" ")" ⟨0, 2⟩, wrapper "Index" "[" "]" ⟨2, 4⟩]
    let ws : List Wrapper := [⟨"(", ")", ⟨0, 2⟩⟩, ⟨"[", "]", ⟨2, 4⟩⟩]
    let bytes := "abcd".toUTF8.toList
    List.Forall₂ IsWrapper fixes ws ∧
    (∀ w ∈ ws, w.range.start < w.range.stop ∧ w.range.stop.toNat ≤ bytes.length) ∧
    ws.Pairwise Wrapper.Apart ∧
    applyAll (edits fixes) bytes = "(ab[)cd]".toUTF8.toList ∧
    Wrapper.wrapAll bytes ws = "(ab)[cd]".toUTF8.toList ∧
    applyAll (edits fixes) bytes ≠ Wrapper.wrapAll bytes ws := by
  intro fixes ws bytes
  have hfixes : List.Forall₂ IsWrapper fixes ws :=
    .cons (isWrapper_wrapper _ _ _ _) (.cons (isWrapper_wrapper _ _ _ _) .nil)
  have hranges : ∀ w ∈ ws, w.range.start < w.range.stop ∧ w.range.stop.toNat ≤ bytes.length := by
    decide +kernel
  have hapart : ws.Pairwise Wrapper.Apart := by decide
  have hcrossed : applyAll (edits fixes) bytes = "(ab[)cd]".toUTF8.toList := by
    rw [applyAll_edits_of_wrappers hfixes fun w hw =>
      ⟨UInt32.le_of_lt (hranges w hw).1, (hranges w hw).2⟩]
    decide +kernel
  have hwrapped : Wrapper.wrapAll bytes ws = "(ab)[cd]".toUTF8.toList := by
    rw [Wrapper.wrapAll_eq_weave hranges hapart]
    decide +kernel
  refine ⟨hfixes, hranges, hapart, hcrossed, hwrapped, ?_⟩
  rw [hcrossed, hwrapped]
  decide +kernel

end Fix

end Uncaught
