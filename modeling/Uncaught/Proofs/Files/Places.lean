import Uncaught.Proofs.Files.Union

/-!
Paths and the places that they lead to. The files of a disk are told apart by the names that lead to
them from the root, paths by their components. A path that does not go up says where it starts and which
names follow, so two such paths that start alike lead to one place only if they are the same path. Paths
that start in different ways, or go up, may lead to one place and still be different paths.
-/

namespace Uncaught

namespace Path

@[simp] theorem names_append (x y : String) : names (x ++ "/" ++ y) = names x ++ names y := by
  have hlist : (x ++ "/" ++ y).toList = x.toList ++ '/' :: y.toList := by simp
  rw [names, hlist, List.splitOn_append_cons_self, List.map_append]
  rfl

theorem names_singleton {name : String} (hname : '/' ∉ name.toList) : names name = [name] := by
  rw [names, List.splitOn_eq_singleton hname, List.map_singleton, String.ofList_toList]

/-- Where a path starts: at the root, at the current directory if it says so, or just there. -/
def lead (path : String) : List Component :=
  if isAbsolute path then [.root]
  else if (names path).head? = some "." then [.current]
  else []

theorem components_eq (path : String) :
    components path = lead path ++ (names path).filterMap component? := by
  rw [components, lead]
  split
  · rfl
  · split
    · rfl
    · rfl

theorem isAbsolute_eq_of_lead {a b : String} (hlead : lead a = lead b) : isAbsolute a = isAbsolute b := by
  have hroot : ∀ path, isAbsolute path = true ↔ lead path = [.root] := by
    intro path
    rw [lead]
    split
    next h => simp [h]
    next h =>
      split
      · simp [h]
      · simp [h]
  rw [Bool.eq_iff_iff, hroot, hroot, hlead]

theorem component?_eq_parent_iff {name : String} : component? name = some .parent ↔ name = ".." := by
  constructor
  · intro hname
    rw [component?.eq_def] at hname
    split at hname
    · cases hname
    · cases hname
    · rfl
    · cases hname
  · rintro rfl
    rfl

theorem parent_mem_components_iff {path : String} : .parent ∈ components path ↔ ".." ∈ names path := by
  have hlead : .parent ∉ lead path := by
    rw [lead]
    split
    · simp
    · split
      · simp
      · simp
  rw [components_eq, List.mem_append, List.mem_filterMap]
  constructor
  · rintro (hmem | ⟨name, hmem, hname⟩)
    · exact absurd hmem hlead
    · rwa [component?_eq_parent_iff.mp hname] at hmem
  · intro hmem
    exact Or.inr ⟨"..", hmem, rfl⟩

/-- The names that lead further. -/
def further (names : List String) : List String := names.filter fun name => name ≠ "" && name ≠ "."

theorem further_append (ns ms : List String) : further (ns ++ ms) = further ns ++ further ms :=
  List.filter_append ..

theorem further_singleton {name : String} (hempty : name ≠ "") (hdot : name ≠ ".") :
    further [name] = [name] := by
  simp [further, hempty, hdot]

theorem filterMap_component?_singleton {name : String} (hparent : name ≠ "..") :
    [name].filterMap component? = (further [name]).map .normal := by
  by_cases hempty : name = ""
  · subst hempty
    rfl
  · by_cases hdot : name = "."
    · subst hdot
      rfl
    · have hnormal : component? name = some (.normal name) := by
        rw [component?]
        · exact hempty
        · exact hdot
        · exact hparent
      rw [List.filterMap_cons_some hnormal, further_singleton hempty hdot]
      rfl

/-- Without going up, the components of a path are its start and the names that lead further. -/
theorem components_eq_further {path : String} (hparent : .parent ∉ components path) :
    components path = lead path ++ (further (names path)).map .normal := by
  have hnames : ∀ ns : List String, ".." ∉ ns →
      ns.filterMap component? = (further ns).map .normal := by
    intro ns hns
    induction ns with
    | nil => rfl
    | cons name ns ih =>
        obtain ⟨hname, hrest⟩ := List.ne_and_not_mem_of_not_mem_cons hns
        rw [← List.singleton_append, List.filterMap_append, further_append, List.map_append,
          filterMap_component?_singleton hname.symm, ih hrest]
  rw [components_eq, hnames _ (mt parent_mem_components_iff.mpr hparent)]

end Path

namespace Disk

open Uncaught.Path (isAbsolute lead further components names)

variable {d : Disk} {place place' : Location} {a b path : String}

/-! ### Where a path leads -/

theorem step_down (d : Disk) (ns : List String) (entries : List (String × Entry)) {name : String}
    (hempty : name ≠ "") (hdot : name ≠ ".") (hparent : name ≠ "..") :
    d.step ⟨ns, .dir entries⟩ name =
      if maxNameBytes < name.utf8ByteSize then .error .nameTooLong
      else (child? name (.dir entries)).map fun entry => ⟨ns ++ [name], entry⟩ := by
  simp only [step]
  cases child? name (.dir entries) <;> rfl

/-- A step stays, goes up, or goes down to an entry of the directory. -/
theorem step_cases {name : String} (hstep : d.step place name = .ok place') :
    (name = "" ∨ name = ".") ∧ place' = place ∨
    name = ".." ∧ d.entryAt place'.names = .ok place'.entry ∨
    (name ≠ "" ∧ name ≠ ".") ∧ child? name place.entry = .ok place'.entry ∧
      place'.names = place.names ++ [name] := by
  obtain ⟨ns, entry⟩ := place
  cases entry with
  | file bytes => cases hstep
  | dir entries =>
      by_cases hempty : name = ""
      · subst hempty
        cases hstep
        exact Or.inl ⟨Or.inl rfl, rfl⟩
      · by_cases hdot : name = "."
        · subst hdot
          cases hstep
          exact Or.inl ⟨Or.inr rfl, rfl⟩
        · by_cases hparent : name = ".."
          · subst hparent
            change (d.entryAt ns.dropLast >>= fun entry => .ok ⟨ns.dropLast, entry⟩) = .ok place' at hstep
            cases hentry : d.entryAt ns.dropLast with
            | error fault =>
                rw [hentry] at hstep
                cases hstep
            | ok entry =>
                rw [hentry] at hstep
                cases hstep
                exact Or.inr (Or.inl ⟨rfl, hentry⟩)
          · rw [step_down d ns entries hempty hdot hparent] at hstep
            split at hstep
            next => cases hstep
            next =>
              cases hchild : child? name (.dir entries) with
              | error fault =>
                  rw [hchild] at hstep
                  cases hstep
              | ok entry =>
                  rw [hchild] at hstep
                  cases hstep
                  exact Or.inr (Or.inr ⟨⟨hempty, hdot⟩, rfl, rfl⟩)

theorem step_names {name : String} (hname : name ≠ "..") (hstep : d.step place name = .ok place') :
    place'.names = place.names ++ further [name] := by
  rcases step_cases hstep with ⟨rfl | rfl, rfl⟩ | ⟨hparent, -⟩ | ⟨⟨hempty, hdot⟩, -, hnames⟩
  · exact (List.append_nil _).symm
  · exact (List.append_nil _).symm
  · exact absurd hparent hname
  · rw [hnames, Path.further_singleton hempty hdot]

/-- Names that do not go up are followed one after another. -/
theorem foldlM_step_names {ns : List String} (hns : ".." ∉ ns)
    (hok : ns.foldlM d.step place = .ok place') : place'.names = place.names ++ further ns := by
  induction ns generalizing place with
  | nil =>
      cases hok
      exact (List.append_nil _).symm
  | cons name ns ih =>
      obtain ⟨hname, hns⟩ := List.ne_and_not_mem_of_not_mem_cons hns
      rw [List.foldlM_cons] at hok
      cases hstep : d.step place name with
      | error fault =>
          rw [hstep] at hok
          cases hok
      | ok next =>
          rw [hstep] at hok
          have hrest := ih hns hok
          rw [hrest, step_names hname.symm hstep, List.append_assoc, ← Path.further_append,
            List.singleton_append]

/-- The names that the walk along a path starts from. -/
def start (d : Disk) (path : String) : List String := if isAbsolute path then [] else d.here

theorem start_congr (hlead : lead a = lead b) : d.start a = d.start b := by
  rw [start, start, Path.isAbsolute_eq_of_lead hlead]

theorem locate_eq_ok_iff {place : Location} :
    d.locate path = .ok place ↔
      path ≠ "" ∧ Char.ofNat 0 ∉ path.toList ∧ ∃ entry, d.entryAt (d.start path) = .ok entry ∧
        (names path).foldlM d.step ⟨d.start path, entry⟩ = .ok place := by
  rw [locate]
  by_cases hempty : path = ""
  · simp [hempty]
  · by_cases hnul : path.toList.contains (Char.ofNat 0) = true
    · simp only [if_neg hempty, if_pos hnul]
      simp_all
    · simp only [if_neg hempty, if_neg hnul]
      rw [List.contains_iff_mem] at hnul
      simp only [ne_eq, hempty, not_false_eq_true, hnul, true_and]
      rw [start]
      cases d.entryAt (if isAbsolute path = true then [] else d.here) with
      | error fault => simp [bind, Except.bind]
      | ok entry => simp [bind, Except.bind]

theorem locate_names (hparent : .parent ∉ components path) (hok : d.locate path = .ok place) :
    place.names = d.start path ++ further (names path) := by
  obtain ⟨-, -, entry, -, hsteps⟩ := locate_eq_ok_iff.mp hok
  rw [Path.parent_mem_components_iff] at hparent
  exact foldlM_step_names hparent hsteps

/-- Two paths lead to one place. -/
def SamePlace (d : Disk) (a b : String) : Prop :=
  ∃ place place', d.locate a = .ok place ∧ d.locate b = .ok place' ∧ place.names = place'.names

/-- Paths that lead somewhere and do not go up lead to one place exactly if the same names are followed
from the root. -/
theorem samePlace_iff (ha : .parent ∉ components a) (hb : .parent ∉ components b)
    (hplace : d.locate a = .ok place) (hplace' : d.locate b = .ok place') :
    d.SamePlace a b ↔ d.start a ++ further (names a) = d.start b ++ further (names b) := by
  rw [← locate_names ha hplace, ← locate_names hb hplace']
  constructor
  · rintro ⟨_, _, hok, hok', hnames⟩
    obtain rfl := Except.ok.inj (hplace.symm.trans hok)
    obtain rfl := Except.ok.inj (hplace'.symm.trans hok')
    exact hnames
  · intro hnames
    exact ⟨place, place', hplace, hplace', hnames⟩

/-- Paths that start alike and do not go up lead to one place only if they are the same path. -/
theorem SamePlace.components_eq (hsame : d.SamePlace a b) (hlead : lead a = lead b)
    (ha : .parent ∉ components a) (hb : .parent ∉ components b) : components a = components b := by
  obtain ⟨place, place', hplace, hplace', -⟩ := id hsame
  have hnames := (samePlace_iff ha hb hplace hplace').mp hsame
  rw [start_congr hlead] at hnames
  have hfurther := List.append_cancel_left hnames
  rw [Path.components_eq_further ha, Path.components_eq_further hb, hlead, hfurther]

end Disk

end Uncaught
