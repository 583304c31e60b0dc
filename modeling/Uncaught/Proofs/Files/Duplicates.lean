import Uncaught.Proofs.Files.Places

/-!
When a file can be collected twice. A walk yields paths that start with the directory as it is spelled,
each leading to a file of its own. So arguments that start alike and do not go up give every file once,
however they overlap. The same file under a path with a leading dot and under one without is collected
twice, since these are different paths.
-/

namespace Uncaught

open Uncaught.Path (join lead components names isAbsolute)

/-- A name that a directory can hold. -/
@[mk_iff]
structure Path.ProperName (name : String) : Prop where
  ne_empty : name ≠ ""
  ne_dot : name ≠ "."
  ne_parent : name ≠ ".."
  no_separator : '/' ∉ name.toList
  no_nul : Char.ofNat 0 ∉ name.toList
  short : name.utf8ByteSize ≤ Disk.maxNameBytes

instance Path.decidableProperName (name : String) : Decidable (Path.ProperName name) :=
  decidable_of_iff' _ (Path.properName_iff name)

/-- Directories hold proper names, each once. -/
inductive Entry.Proper : Entry → Prop
  | file (bytes : ByteArray) : Proper (.file bytes)
  | dir {entries : List (String × Entry)} (hnodup : (entries.map Prod.fst).Nodup)
      (hnames : ∀ x ∈ entries, Path.ProperName x.1) (hentries : ∀ x ∈ entries, Proper x.2) :
      Proper (.dir entries)

/-- Every directory of the disk holds proper names, each once. -/
def Disk.Proper (d : Disk) : Prop := (Entry.dir d.top).Proper

namespace Path

variable {dir name : String}

theorem ProperName.isAbsolute_eq_false (hname : ProperName name) : isAbsolute name = false := by
  rw [isAbsolute, decide_eq_false_iff_not]
  intro hhead
  exact hname.no_separator (List.mem_of_head? hhead)

/-- A name is put behind a separator, which a directory may bring along. -/
theorem ProperName.exists_join_eq (hname : ProperName name) (hdir : dir ≠ "") :
    ∃ x, (dir = x ∨ dir = x ++ "/") ∧ join dir name = x ++ "/" ++ name := by
  rw [join, hname.isAbsolute_eq_false]
  simp only [Bool.false_eq_true, if_false, hdir, decide_false, Bool.false_or, decide_eq_true_eq]
  by_cases hlast : dir.toList.getLast? = some '/'
  · obtain ⟨init, hinit⟩ := List.getLast?_eq_some_iff.mp hlast
    have hx : dir = String.ofList init ++ "/" := by
      rw [← String.ofList_toList (s := dir), hinit, String.ofList_append]
    exact ⟨_, Or.inr hx, by rw [if_pos hlast, ← hx]⟩
  · exact ⟨dir, Or.inl rfl, if_neg hlast⟩

@[simp] theorem head?_append_separator (x y : String) :
    (x ++ "/" ++ y).toList.head? = x.toList.head?.or (some '/') := by
  have hlist : (x ++ "/" ++ y).toList = x.toList ++ '/' :: y.toList := by simp
  rw [hlist, List.head?_append, List.head?_cons]

/-- What stands behind a separator does not change where a path starts. -/
theorem lead_append (x y : String) : lead (x ++ "/" ++ y) = lead (x ++ "/") := by
  have habsolute : isAbsolute (x ++ "/" ++ y) = isAbsolute (x ++ "/" ++ "") := by
    rw [isAbsolute, isAbsolute, head?_append_separator, head?_append_separator]
  have hhead : (names (x ++ "/" ++ y)).head? = (names (x ++ "/" ++ "")).head? := by
    obtain ⟨first, hfirst⟩ := Option.isSome_iff_exists.mp (List.isSome_head?.mpr (names_ne_nil x))
    rw [names_append, names_append, List.head?_append, List.head?_append, hfirst, Option.some_or,
      Option.some_or]
  rw [String.append_empty] at habsolute hhead
  rw [lead, lead, habsolute, hhead]

theorem lead_append_separator {x : String} (hx : x ≠ "") : lead (x ++ "/") = lead x := by
  have hlist : x.toList ≠ [] := by rwa [ne_eq, String.toList_eq_nil_iff]
  have habsolute : isAbsolute (x ++ "/" ++ "") = isAbsolute x := by
    obtain ⟨c, hc⟩ := Option.isSome_iff_exists.mp (List.isSome_head?.mpr hlist)
    rw [isAbsolute, isAbsolute, head?_append_separator, hc, Option.some_or]
  have hhead : (names (x ++ "/" ++ "")).head? = (names x).head? := by
    obtain ⟨first, hfirst⟩ := Option.isSome_iff_exists.mp (List.isSome_head?.mpr (names_ne_nil x))
    rw [names_append, List.head?_append, hfirst, Option.some_or]
  rw [String.append_empty] at habsolute hhead
  rw [lead, lead, habsolute, hhead]

theorem ProperName.lead_join (hname : ProperName name) (hdir : dir ≠ "") :
    lead (join dir name) = lead dir := by
  obtain ⟨x, hx, hjoin⟩ := hname.exists_join_eq hdir
  rw [hjoin, lead_append]
  rcases hx with rfl | rfl
  · exact lead_append_separator hdir
  · rfl

/-- The names of a joined path: those of the directory, less an empty one at its end, and the name. -/
theorem ProperName.exists_names_join (hname : ProperName name) (hdir : dir ≠ "") :
    ∃ front, (names dir = front ∨ names dir = front ++ [""]) ∧
      names (join dir name) = front ++ [name] := by
  obtain ⟨x, hx, hjoin⟩ := hname.exists_join_eq hdir
  refine ⟨names x, ?_, by rw [hjoin, names_append, names_singleton hname.no_separator]⟩
  rcases hx with rfl | rfl
  · exact Or.inl rfl
  · right
    rw [← String.append_empty (s := x ++ "/"), names_append]
    rfl

theorem ProperName.parent_mem_join_iff (hname : ProperName name) (hdir : dir ≠ "") :
    .parent ∈ components (join dir name) ↔ .parent ∈ components dir := by
  obtain ⟨front, hfront, hjoin⟩ := hname.exists_names_join hdir
  rw [parent_mem_components_iff, parent_mem_components_iff, hjoin, List.mem_append,
    List.mem_singleton, or_iff_left hname.ne_parent.symm]
  rcases hfront with hfront | hfront
  · rw [hfront]
  · rw [hfront, List.mem_append, List.mem_singleton]
    exact (or_iff_left (by decide)).symm

theorem ProperName.join_ne_empty (hname : ProperName name) (hdir : dir ≠ "") : join dir name ≠ "" := by
  obtain ⟨x, -, hjoin⟩ := hname.exists_join_eq hdir
  intro hempty
  have hlist := congrArg String.toList (hjoin.symm.trans hempty)
  simp at hlist

theorem ProperName.nul_notMem_join (hname : ProperName name) (hdir : dir ≠ "")
    (hnul : Char.ofNat 0 ∉ dir.toList) : Char.ofNat 0 ∉ (join dir name).toList := by
  obtain ⟨x, hx, hjoin⟩ := hname.exists_join_eq hdir
  have hfront : Char.ofNat 0 ∉ x.toList := by
    rcases hx with rfl | rfl
    · exact hnul
    · rw [String.toList_append, List.mem_append, not_or] at hnul
      exact hnul.1
  rw [hjoin, String.toList_append, String.toList_append, List.mem_append, List.mem_append]
  rintro ((hmem | hmem) | hmem)
  · exact hfront hmem
  · exact absurd hmem (by decide)
  · exact hname.no_nul hmem

end Path

namespace Disk

variable {d : Disk} {dir name path : String} {ns : List String} {entries : List (String × Entry)}
  {entry : Entry}

/-- An entry is found under its name behind the directory that holds it. -/
theorem locate_join (hdir : d.locate dir = .ok ⟨ns, .dir entries⟩) (hname : Path.ProperName name)
    (hentry : entries.lookup name = some entry) :
    d.locate (join dir name) = .ok ⟨ns ++ [name], entry⟩ := by
  obtain ⟨hne, hnul, top, htop, hsteps⟩ := locate_eq_ok_iff.mp hdir
  have hdown : d.step ⟨ns, .dir entries⟩ name = .ok ⟨ns ++ [name], entry⟩ := by
    rw [step_down d ns entries hname.ne_empty hname.ne_dot hname.ne_parent,
      if_neg (Nat.not_lt.mpr hname.short), child?, hentry]
    rfl
  obtain ⟨front, hfront, hjoin⟩ := hname.exists_names_join hne
  -- an empty name at the end leads nowhere else
  have hlast : front.foldlM d.step ⟨d.start dir, top⟩ = .ok ⟨ns, .dir entries⟩ := by
    rcases hfront with hfront | hfront
    · rwa [hfront] at hsteps
    · rw [hfront, List.foldlM_append] at hsteps
      cases hmid : front.foldlM d.step ⟨d.start dir, top⟩ with
      | error fault =>
          rw [hmid] at hsteps
          cases hsteps
      | ok mid =>
          rw [hmid] at hsteps
          obtain ⟨ms, entry⟩ := mid
          cases entry with
          | file bytes => cases hsteps
          | dir inner => exact hsteps
  refine locate_eq_ok_iff.mpr ⟨hname.join_ne_empty hne, hname.nul_notMem_join hne hnul, top, ?_, ?_⟩
  · rwa [start_congr (hname.lead_join hne)]
  · rw [start_congr (hname.lead_join hne), hjoin, List.foldlM_append, hlast]
    exact congrArg (· >>= pure) hdown

theorem isFile_of_locate {bytes : ByteArray} (hpath : d.locate path = .ok ⟨ns, .file bytes⟩) :
    d.isFile path = true := by
  rw [isFile, hpath]

end Disk

namespace Entry.Proper

variable {entries : List (String × Entry)} {name : String} {entry : Entry}

theorem lookup_eq (hproper : (Entry.dir entries).Proper) (hmem : (name, entry) ∈ entries) :
    entries.lookup name = some entry := by
  cases hproper with
  | dir hnodup _ _ =>
      obtain ⟨before, after, rfl⟩ := List.append_of_mem hmem
      rw [List.map_append, List.map_cons, List.nodup_append] at hnodup
      refine List.lookup_eq_some_iff.mpr ⟨before, after, rfl, fun other hother => bne_iff_ne.mpr ?_⟩
      exact (hnodup.2.2 other.1 (List.mem_map_of_mem hother) name List.mem_cons_self).symm

theorem single (hname : Path.ProperName name) (hentry : entry.Proper) :
    (Entry.dir [(name, entry)]).Proper :=
  .dir (List.nodup_singleton name) (by simpa using hname) (by simpa using hentry)

theorem properName (hproper : (Entry.dir entries).Proper) (hmem : (name, entry) ∈ entries) :
    Path.ProperName name := by
  cases hproper with
  | dir _ hnames _ => exact hnames _ hmem

theorem child (hproper : (Entry.dir entries).Proper) (hmem : (name, entry) ∈ entries) :
    entry.Proper := by
  cases hproper with
  | dir _ _ hentries => exact hentries _ hmem

theorem of_child? {inner : Entry} (hproper : entry.Proper)
    (hchild : Disk.child? name entry = .ok inner) : inner.Proper := by
  cases entry with
  | file bytes => cases hchild
  | dir entries =>
      rw [Disk.child?] at hchild
      cases hlookup : entries.lookup name with
      | none =>
          rw [hlookup] at hchild
          cases hchild
      | some found =>
          rw [hlookup] at hchild
          cases hchild
          obtain ⟨before, after, hsplit, -⟩ := List.lookup_eq_some_iff.mp hlookup
          have hmem : (name, inner) ∈ entries := by simp [hsplit]
          exact hproper.child hmem

end Entry.Proper

/-- What every step of a fold keeps, the fold keeps. -/
theorem foldlM_keeps {α σ ε : Type} {f : σ → α → Except ε σ} {P : σ → Prop} {xs : List α} {s s' : σ}
    (hstep : ∀ s x s', P s → f s x = .ok s' → P s') (hs : P s) (hok : xs.foldlM f s = .ok s') :
    P s' := by
  induction xs generalizing s with
  | nil =>
      cases hok
      exact hs
  | cons x xs ih =>
      rw [List.foldlM_cons] at hok
      cases hx : f s x with
      | error e =>
          rw [hx] at hok
          cases hok
      | ok next =>
          rw [hx] at hok
          exact ih (hstep s x next hs hx) hok

namespace Disk

variable {d : Disk} {dir path : String} {ns : List String} {entries : List (String × Entry)}

theorem Proper.entryAt (hd : d.Proper) {entry : Entry} (hok : d.entryAt ns = .ok entry) : entry.Proper :=
  foldlM_keeps (fun _ _ _ hproper hchild => hproper.of_child? hchild) hd hok

theorem Proper.step (hd : d.Proper) {place place' : Location} {name : String}
    (hplace : place.entry.Proper) (hstep : d.step place name = .ok place') : place'.entry.Proper := by
  rcases step_cases hstep with ⟨-, rfl⟩ | ⟨-, hentry⟩ | ⟨-, hchild, -⟩
  · exact hplace
  · exact hd.entryAt hentry
  · exact hplace.of_child? hchild

theorem Proper.locate (hd : d.Proper) {place : Location} (hok : d.locate path = .ok place) :
    place.entry.Proper := by
  obtain ⟨-, -, top, htop, hsteps⟩ := locate_eq_ok_iff.mp hok
  exact foldlM_keeps (P := fun place => place.entry.Proper) (fun _ _ _ => hd.step) (hd.entryAt htop)
    hsteps

/-! ### Walks -/

/-- A path leads to a file, and is spelled like the directory or file it was reached from. -/
structure SpelledLike (d : Disk) (arg path : String) : Prop where
  lead_eq : lead path = lead arg
  parent_iff : .parent ∈ components path ↔ .parent ∈ components arg
  isFile : d.isFile path = true

/-- A walk yields files, under the spelling of the directory. -/
theorem spelledLike_of_mem_files (d : Disk) (w : Walk) (levels : List Ignore.Level)
    (dir : String) (rest : List (String × Entry)) (hdir : d.locate dir = .ok ⟨ns, .dir entries⟩)
    (hproper : (Entry.dir entries).Proper) (hrest : rest ⊆ entries)
    (hpath : path ∈ w.files levels dir rest) : d.SpelledLike dir path := by
  have hne : ∀ {dir ns entries}, d.locate dir = .ok ⟨ns, .dir entries⟩ → dir ≠ "" :=
    fun hdir => (locate_eq_ok_iff.mp hdir).1
  -- the walk takes a directory entry by entry, so `rest` is only a part of what the directory holds
  fun_induction Walk.files w levels dir rest generalizing ns entries
  case case1 => cases hpath
  case case2 dir name bytes rest joined found hskips ih =>
    exact ih hdir hproper (List.cons_subset.mp hrest).2 hpath
  case case3 dir name bytes rest joined found hkept ih =>
    obtain ⟨hmem, hrest⟩ := List.cons_subset.mp hrest
    rcases List.mem_cons.mp hpath with rfl | hpath
    · have hname := hproper.properName hmem
      exact ⟨hname.lead_join (hne hdir), hname.parent_mem_join_iff (hne hdir),
        isFile_of_locate (locate_join hdir hname (hproper.lookup_eq hmem))⟩
    · exact ih hdir hproper hrest hpath
  case case4 dir name inner rest joined found hskips ih =>
    exact ih hdir hproper (List.cons_subset.mp hrest).2 hpath
  case case5 dir name inner rest joined found hkept ih ihinner =>
    obtain ⟨hmem, hrest⟩ := List.cons_subset.mp hrest
    rcases List.mem_append.mp hpath with hpath | hpath
    · have hname := hproper.properName hmem
      have hjoined := locate_join hdir hname (hproper.lookup_eq hmem)
      have hbelow := ihinner hjoined (hproper.child hmem) (List.Subset.refl inner) hpath
      exact ⟨hbelow.lead_eq.trans (hname.lead_join (hne hdir)),
        hbelow.parent_iff.trans (hname.parent_mem_join_iff (hne hdir)), hbelow.isFile⟩
    · exact ih hdir hproper hrest hpath

theorem Proper.spelledLike_of_mem_walk (hd : d.Proper) {given : Ignore.RuleSet}
    (hpath : path ∈ d.walk given dir) : d.SpelledLike dir path := by
  rw [walk] at hpath
  split at hpath
  next names entries hdir =>
    exact spelledLike_of_mem_files d _ _ dir entries hdir (hd.locate hdir) (List.Subset.refl entries)
      hpath
  next => cases hpath

variable {s : Settings} {paths files : List String}

theorem Proper.exists_spelledLike (hd : d.Proper) (hok : d.view.collect s paths = .ok files)
    (hpath : path ∈ files) : ∃ arg ∈ paths, d.SpelledLike arg path := by
  obtain ⟨arg, harg, hnames⟩ := FileView.exists_names_of_mem_collect hok hpath
  refine ⟨arg, harg, ?_⟩
  cases hnames with
  | file hfile => exact ⟨rfl, Iff.rfl, hfile⟩
  | walked _ _ _ _ hwalked => exact hd.spelledLike_of_mem_walk hwalked

theorem exists_locate_of_isFile (hfile : d.isFile path = true) : ∃ place, d.locate path = .ok place := by
  rw [isFile] at hfile
  split at hfile
  next hplace => exact ⟨_, hplace⟩
  next => cases hfile

/-- Two paths of the answer that lead to one place start differently, or one of them goes up. -/
theorem pairwise_spelledApart (hok : d.view.collect s paths = .ok files) :
    files.Pairwise fun a b => d.SamePlace a b →
      lead a ≠ lead b ∨ .parent ∈ components a ∨ .parent ∈ components b := by
  refine (FileView.pairwise_lt_collect hok).imp fun {a b} hlt hsame => ?_
  by_contra halike
  push Not at halike
  obtain ⟨hlead, ha, hb⟩ := halike
  exact hlt.ne (hsame.components_eq hlead ha hb)

/-- **A file is collected twice only under paths that start differently or go up.** Let the names in
every directory be proper. Then every path that is collected leads to a file. Two of them that do not go
up lead to the same file exactly if the same names are followed from the root. If they are not the same
path, then they start differently, or one of them goes up. So arguments that start alike and do not go
up give every file once, however they overlap. -/
theorem collect_once_of_spelled_alike (d : Disk) (s : Settings) (paths files : List String)
    (hd : d.Proper) (hok : d.view.collect s paths = .ok files) :
    (∀ p ∈ files, d.isFile p = true) ∧
    (∀ a ∈ files, ∀ b ∈ files, .parent ∉ components a → .parent ∉ components b →
      (d.SamePlace a b ↔
        d.start a ++ Path.further (names a) = d.start b ++ Path.further (names b))) ∧
    (files.Pairwise fun a b => d.SamePlace a b →
      lead a ≠ lead b ∨ .parent ∈ components a ∨ .parent ∈ components b) ∧
    ((∀ arg ∈ paths, .parent ∉ components arg) →
      (∀ arg ∈ paths, ∀ other ∈ paths, lead arg = lead other) →
      files.Pairwise fun a b => ¬d.SamePlace a b) := by
  have hfile : ∀ p ∈ files, d.isFile p = true := by
    intro p hp
    obtain ⟨arg, -, hlike⟩ := hd.exists_spelledLike hok hp
    exact hlike.isFile
  refine ⟨hfile, fun a ha b hb hup hup' => ?_, pairwise_spelledApart hok, fun hup hstart => ?_⟩
  · obtain ⟨place, hplace⟩ := exists_locate_of_isFile (hfile a ha)
    obtain ⟨place', hplace'⟩ := exists_locate_of_isFile (hfile b hb)
    exact samePlace_iff hup hup' hplace hplace'
  · refine (pairwise_spelledApart hok).imp_of_mem fun {a b} ha hb hapart hsame => ?_
    obtain ⟨arg, harg, hlike⟩ := hd.exists_spelledLike hok ha
    obtain ⟨other, hother, hlike'⟩ := hd.exists_spelledLike hok hb
    rcases hapart hsame with hlead | hparent | hparent
    · exact hlead (hlike.lead_eq.trans ((hstart arg harg other hother).trans hlike'.lead_eq.symm))
    · exact hup arg harg (hlike.parent_iff.mp hparent)
    · exact hup other hother (hlike'.parent_iff.mp hparent)

/-- A directory and, in two spellings, the file in it: the file is collected once. -/
theorem collect_once_of_spelled_alike_overlap :
    let d : Disk := ⟨[("p", .dir [("src", .dir [("a.tree.json", .file ⟨#[]⟩)])])], ["p"]⟩
    d.Proper ∧ ∃ files,
      d.view.collect .default ["src", "src//a.tree.json", "src/a.tree.json"] = .ok files ∧
      (∃ p ∈ files, components p = [.normal "src", .normal "a.tree.json"]) ∧
      files.Pairwise fun a b => ¬d.SamePlace a b := by
  intro d
  have hd : d.Proper := .single (by decide) (.single (by decide) (.single (by decide) (.file _)))
  have hthere : ∀ arg ∈ ["src", "src//a.tree.json", "src/a.tree.json"],
      d.view.isFile arg = true ∨ d.view.isDir arg = true := by decide
  have hall : ∀ arg ∈ ["src", "src//a.tree.json", "src/a.tree.json"], ∀ e,
      ¬d.view.Refuses .default arg e := by
    intro arg harg e hrefuses
    cases hrefuses with
    | notFound hfile hdir => simpa [hfile, hdir] using hthere arg harg
    | invalid _ _ hinvalid => cases FileView.readPatterns_eq_error_iff.mpr hinvalid
  obtain ⟨files, hok⟩ := FileView.exists_collect_eq_ok hall
  obtain ⟨-, -, -, honce⟩ := collect_once_of_spelled_alike d .default _ files hd hok
  refine ⟨hd, files, hok, ?_, honce (by decide) (by decide)⟩
  have hnamed : d.view.Names .default "src/a.tree.json" "src/a.tree.json" := .file rfl
  obtain ⟨p, hp, hsame⟩ := (FileView.exists_same_collect_iff hok "src/a.tree.json").mpr
    ⟨_, by simp, _, hnamed, by decide⟩
  exact ⟨p, hp, (Path.same_iff _ _).mp hsame⟩

/-- A file under its name and under its name behind a dot: it is collected twice. -/
theorem collect_twice_leadingDot :
    let d : Disk := ⟨[("p", .dir [("a.tree.json", .file ⟨#[]⟩)])], ["p"]⟩
    d.Proper ∧
    d.view.collect .default ["./a.tree.json", "a.tree.json"] = .ok ["./a.tree.json", "a.tree.json"] ∧
    d.SamePlace "./a.tree.json" "a.tree.json" := by
  intro d
  have hsorted : Path.sortedUnion ["./a.tree.json", "a.tree.json"] =
      ["./a.tree.json", "a.tree.json"] := by
    rw [Path.sortedUnion, List.mergeSort_of_pairwise (by decide)]
    decide
  have hnamed : d.view.collect .default ["./a.tree.json", "a.tree.json"] =
      .ok (Path.sortedUnion ["./a.tree.json", "a.tree.json"]) := rfl
  exact ⟨.single (by decide) (.single (by decide) (.file _)),
    hnamed.trans (congrArg Except.ok hsorted), _, _, rfl, rfl, rfl⟩

end Disk

end Uncaught
