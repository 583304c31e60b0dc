import Uncaught.Proofs.Json.Scalar

/-!
Reading finds what was written, in any layout. `Spells j text rest` says that reading `text` gives the
document of `j` and leaves `rest`. The rules of the grammar are lemmas about it, with blanks where a
layout may put them, and writing follows these rules. The calls of a reader are bounded by the
length of its text, so every rule also says that the text gets shorter.
-/

namespace Uncaught.Json

open Document (isBlank skipBlanks readItems readMembers readScalar)

theorem skipBlanks_append {blanks : List Char} (hblanks : Blank blanks) (cs : List Char) :
    skipBlanks (blanks ++ cs) = skipBlanks cs :=
  List.dropWhile_append_of_pos hblanks

theorem skipBlanks_cons {c : Char} (hc : isBlank c = false) (cs : List Char) :
    skipBlanks (c :: cs) = c :: cs :=
  List.dropWhile_cons_of_neg (by simp [hc])

theorem skipBlanks_token {blanks : List Char} (hblanks : Blank blanks) {c : Char}
    (hc : isBlank c = false) (cs : List Char) : skipBlanks (blanks ++ c :: cs) = c :: cs := by
  rw [skipBlanks_append hblanks, skipBlanks_cons hc]

theorem read_blanks {blanks : List Char} (hblanks : Blank blanks) (n : Nat) (cs : List Char) :
    Document.read n (blanks ++ cs) = Document.read n cs := by
  cases n with
  | zero => rw [Document.read, Document.read]
  | succ n => rw [Document.read, Document.read, skipBlanks_append hblanks]

/-- The text starts with the first character of a value. -/
def Starts (text : List Char) : Prop := ∃ c cs, text = c :: cs ∧ isBlank c = false ∧ c ≠ ']'

/-- A spelling of `j` stands at the start of `text`, and `rest` follows it. -/
structure Spells (j : Json) (text rest : List Char) : Prop where
  starts : Starts text
  shorter : rest.length < text.length
  read : ∀ n, 2 * text.length < n → Document.read n text = (j.document, rest)

/-- The items of a list and its end stand at the start of `text`. -/
structure SpellsItems (items : List Json) (text rest : List Char) : Prop where
  starts : Starts text
  shorter : rest.length < text.length
  read : ∀ n, 2 * text.length + 1 < n → readItems n text = (itemDocuments items, .closed, rest)

/-- The members of an object and its end stand at the start of `text`. -/
structure SpellsMembers (members : List (String × Json)) (text rest : List Char) : Prop where
  starts : ∃ cs, text = '"' :: cs
  shorter : rest.length < text.length
  read : ∀ n, 2 * text.length + 1 < n →
    readMembers n text = (memberDocuments members, .closed, rest)

section Rules

variable {j v : Json} {k : String} {items : List Json} {members : List (String × Json)}
  {blanks gap text text' rest : List Char}

theorem Spells.scalar {c : Char} {cs : List Char} (hblank : isBlank c = false)
    (hc : c ≠ '[' ∧ c ≠ ']' ∧ c ≠ '\x7b') (hshorter : rest.length < cs.length + 1)
    (hscalar : readScalar c cs = (j.document, rest)) : Spells j (c :: cs) rest where
  starts := ⟨c, cs, rfl, hblank, hc.2.1⟩
  shorter := hshorter
  read n hn := by
    obtain ⟨n, rfl⟩ := Nat.exists_eq_add_of_lt hn
    rw [Document.read, skipBlanks_cons hblank]
    split
    · cases ‹_ :: _ = []›
    · cases ‹_ :: _ = _›
      exact absurd rfl hc.1
    · cases ‹_ :: _ = _›
      exact absurd rfl hc.2.2
    · cases ‹_ :: _ = _›
      exact hscalar

theorem Spells.null (rest : List Char) : Spells .null ('n' :: 'u' :: 'l' :: 'l' :: rest) rest :=
  .scalar rfl (by decide) (by grind) rfl

theorem Spells.bool (b : Bool) (rest : List Char) : Spells (.bool b) (boolChars b ++ rest) rest := by
  cases b with
  | true =>
      change Spells (.bool true) ('t' :: 'r' :: 'u' :: 'e' :: rest) rest
      exact .scalar rfl (by decide) (by grind) rfl
  | false =>
      change Spells (.bool false) ('f' :: 'a' :: 'l' :: 's' :: 'e' :: rest) rest
      exact .scalar rfl (by decide) (by grind) rfl

theorem Spells.str (s : String) (rest : List Char) : Spells (.str s) (quoteOnto s rest) rest := by
  rw [quoteOnto, List.cons_append]
  refine .scalar rfl (by decide) ?_ ?_
  · rw [List.length_append, List.length_cons]
    omega
  · rw [readScalar, Quotation.read_ofText, document]

theorem readScalar_digit {c : Char} (hdigit : c.isDigit = true) (cs : List Char) :
    readScalar c cs = Document.readNumber (c :: cs) := by
  unfold readScalar
  split
  case h_5 => rw [hdigit, Bool.or_true, if_pos rfl]
  all_goals cases hdigit

theorem Spells.num (n : Nat) (hrest : EndsNumeral rest) :
    Spells (.num n) (Nat.toDigits 10 n ++ rest) rest := by
  have hread := Numeral.read_ofNat n hrest
  cases htext : Nat.toDigits 10 n with
  | nil => exact absurd htext Nat.toDigits_ne_nil
  | cons c cs =>
      have hdigit : c.isDigit = true := isDigit_of_mem_toDigits (n := n) (by simp [htext])
      have hother : ∀ d : Char, d.isDigit = false → c ≠ d := by
        rintro d hd rfl
        rw [hdigit] at hd
        cases hd
      rw [htext, List.cons_append] at hread
      rw [List.cons_append]
      refine .scalar ?_ ⟨hother _ rfl, hother _ rfl, hother _ rfl⟩ ?_ ?_
      · simp [isBlank, hother]
      · rw [List.length_append]
        omega
      · rw [readScalar_digit hdigit, Document.readNumber, hread, document]

theorem Spells.emptyArr (rest : List Char) : Spells (.arr []) ('[' :: ']' :: rest) rest where
  starts := ⟨'[', _, rfl, rfl, by decide⟩
  shorter := by
    simp only [List.length_cons]
    omega
  read n hn := by
    obtain ⟨n, rfl⟩ := Nat.exists_eq_add_of_lt hn
    rfl

theorem Spells.arr (hblanks : Blank blanks) (hitems : SpellsItems items text rest) :
    Spells (.arr items) ('[' :: (blanks ++ text)) rest where
  starts := ⟨'[', _, rfl, rfl, by decide⟩
  shorter := by
    have hshorter := hitems.shorter
    simp only [List.length_cons, List.length_append]
    omega
  read n hn := by
    have hread := hitems.read
    obtain ⟨c, cs, rfl, hblank, hclose⟩ := hitems.starts
    cases n with
    | zero => omega
    | succ n =>
        simp only [List.length_cons, List.length_append] at hn hread
        rw [Document.read, skipBlanks_cons rfl]
        simp only [skipBlanks_token hblanks hblank]
        split
        · cases ‹_ :: _ = []›
        · cases ‹_ :: _ = _›
          exact absurd rfl hclose
        · rw [hread n (by omega), document]

theorem SpellsItems.last (hblanks : Blank blanks) (hv : Spells v text (blanks ++ ']' :: rest)) :
    SpellsItems [v] text rest where
  starts := hv.starts
  shorter := by
    have hshorter := hv.shorter
    simp only [List.length_cons, List.length_append] at hshorter
    omega
  read n hn := by
    cases n with
    | zero => omega
    | succ n =>
        rw [readItems, hv.read n (by omega)]
        simp only [skipBlanks_token hblanks (c := ']') rfl, itemDocuments]

theorem SpellsItems.more (hblanks : Blank blanks) (hv : Spells v text (',' :: (blanks ++ text')))
    (hitems : SpellsItems items text' rest) : SpellsItems (v :: items) text rest where
  starts := hv.starts
  shorter := by
    have hshorter := hv.shorter
    have hshorter' := hitems.shorter
    simp only [List.length_cons, List.length_append] at hshorter
    omega
  read n hn := by
    have hread := hitems.read
    have hshorter := hv.shorter
    obtain ⟨c, cs, rfl, hblank, hclose⟩ := hitems.starts
    cases n with
    | zero => omega
    | succ n =>
        simp only [List.length_cons, List.length_append] at hshorter hread
        rw [readItems, hv.read n (by omega)]
        simp only [skipBlanks_cons (c := ',') rfl, skipBlanks_token hblanks hblank]
        split
        · cases ‹_ :: _ = []›
        · cases ‹_ :: _ = _›
          exact absurd rfl hclose
        · rw [hread n (by omega), itemDocuments]

theorem Spells.emptyObj (rest : List Char) : Spells (.obj []) ('\x7b' :: '\x7d' :: rest) rest where
  starts := ⟨'\x7b', _, rfl, rfl, by decide⟩
  shorter := by
    simp only [List.length_cons]
    omega
  read n hn := by
    obtain ⟨n, rfl⟩ := Nat.exists_eq_add_of_lt hn
    rfl

theorem Spells.obj (hblanks : Blank blanks) (hmembers : SpellsMembers members text rest) :
    Spells (.obj members) ('\x7b' :: (blanks ++ text)) rest where
  starts := ⟨'\x7b', _, rfl, rfl, by decide⟩
  shorter := by
    have hshorter := hmembers.shorter
    simp only [List.length_cons, List.length_append]
    omega
  read n hn := by
    have hread := hmembers.read
    obtain ⟨cs, rfl⟩ := hmembers.starts
    cases n with
    | zero => omega
    | succ n =>
        simp only [List.length_cons, List.length_append] at hn hread
        rw [Document.read, skipBlanks_cons rfl]
        simp only [skipBlanks_token hblanks (c := '"') rfl]
        split
        · cases ‹_ :: _ = []›
        · cases ‹_ :: _ = _›
        · rw [hread n (by omega), document]

theorem length_lt_quoteOnto (k : String) (rest : List Char) :
    rest.length + 1 < (quoteOnto k rest).length := by
  simp only [quoteOnto, List.length_append, List.length_cons]
  omega

theorem SpellsMembers.last (hblanks : Blank blanks) (hgap : Blank gap)
    (hv : Spells v text (blanks ++ '\x7d' :: rest)) :
    SpellsMembers [(k, v)] (quoteOnto k (':' :: (gap ++ text))) rest where
  starts := ⟨_, rfl⟩
  shorter := by
    have hshorter := hv.shorter
    have hquote := length_lt_quoteOnto k (':' :: (gap ++ text))
    simp only [List.length_cons, List.length_append] at hshorter hquote
    omega
  read n hn := by
    have hquote := length_lt_quoteOnto k (':' :: (gap ++ text))
    simp only [List.length_cons, List.length_append] at hquote
    cases n with
    | zero => omega
    | succ n =>
        have hvalue := hv.read n (by omega)
        rw [quoteOnto, List.cons_append, readMembers, Quotation.read_ofText]
        simp only [skipBlanks_cons (c := ':') rfl, read_blanks hgap, hvalue,
          skipBlanks_token hblanks (c := '\x7d') rfl, memberDocuments]

theorem SpellsMembers.more (hblanks : Blank blanks) (hgap : Blank gap)
    (hv : Spells v text (',' :: (blanks ++ text'))) (hmembers : SpellsMembers members text' rest) :
    SpellsMembers ((k, v) :: members) (quoteOnto k (':' :: (gap ++ text))) rest where
  starts := ⟨_, rfl⟩
  shorter := by
    have hshorter := hv.shorter
    have hshorter' := hmembers.shorter
    have hquote := length_lt_quoteOnto k (':' :: (gap ++ text))
    simp only [List.length_cons, List.length_append] at hshorter hquote
    omega
  read n hn := by
    have hread := hmembers.read
    have hshorter := hv.shorter
    have hquote := length_lt_quoteOnto k (':' :: (gap ++ text))
    obtain ⟨cs, rfl⟩ := hmembers.starts
    cases n with
    | zero => omega
    | succ n =>
        simp only [List.length_cons, List.length_append] at hshorter hquote hread
        have hvalue := hv.read n (by omega)
        rw [quoteOnto, List.cons_append, readMembers, Quotation.read_ofText]
        simp only [skipBlanks_cons (c := ':') rfl, read_blanks hgap, hvalue,
          skipBlanks_cons (c := ',') rfl, skipBlanks_token hblanks (c := '"') rfl]
        split
        · cases ‹_ :: _ = []›
        · cases ‹_ :: _ = _›
        · rw [hread n (by omega), memberDocuments]

end Rules

/-! ### Written texts -/

theorem endsNumeral_nil : EndsNumeral [] := nofun

theorem endsNumeral_cons {c : Char} (hc : c.isDigit = false ∧ c ≠ '.' ∧ c ≠ 'e' ∧ c ≠ 'E')
    (rest : List Char) : EndsNumeral (c :: rest) := by
  rintro d hd
  cases hd
  exact hc

/-- Blanks end a numeral, as what follows them does. -/
theorem endsNumeral_append {blanks rest : List Char} (hblanks : Blank blanks)
    (hrest : EndsNumeral rest) : EndsNumeral (blanks ++ rest) := by
  cases blanks with
  | nil => exact hrest
  | cons c cs =>
      have hc : isBlank c = true := hblanks c List.mem_cons_self
      refine endsNumeral_cons ?_ _
      simp only [isBlank, Bool.or_eq_true, decide_eq_true_eq] at hc
      rcases hc with ((rfl | rfl) | rfl) | rfl <;> decide

section Layouts

variable (l : Layout)

mutual

theorem spells_writeOnto : ∀ (level : Nat) (j : Json) (rest : List Char), EndsNumeral rest →
    Spells j (writeOnto l level j rest) rest
  | _, .null, rest, _ => by
      rw [writeOnto]
      exact .null rest
  | _, .bool b, rest, _ => by
      rw [writeOnto]
      exact .bool b rest
  | _, .num n, rest, hrest => by
      rw [writeOnto]
      exact .num n hrest
  | _, .str s, rest, _ => by
      rw [writeOnto]
      exact .str s rest
  | _, .arr [], rest, _ => by
      rw [writeOnto]
      exact .emptyArr rest
  | level, .arr (v :: vs), rest, _ => by
      rw [writeOnto]
      exact .arr (l.line_blank _) (spellsItems_itemsOnto level v vs rest)
  | _, .obj [], rest, _ => by
      rw [writeOnto]
      exact .emptyObj rest
  | level, .obj ((k, v) :: ms), rest, _ => by
      rw [writeOnto]
      exact .obj (l.line_blank _) (spellsMembers_membersOnto level k v ms rest)
termination_by _ j => sizeOf j

theorem spellsItems_itemsOnto : ∀ (level : Nat) (v : Json) (vs : List Json) (rest : List Char),
    SpellsItems (v :: vs)
      (writeOnto l (level + 1) v (itemsOnto l (level + 1) vs (l.line level ++ ']' :: rest))) rest
  | level, v, [], rest => by
      have hend := endsNumeral_append (l.line_blank level) (endsNumeral_cons (c := ']') (by decide) rest)
      rw [itemsOnto]
      exact .last (l.line_blank level) (spells_writeOnto (level + 1) v _ hend)
  | level, v, w :: ws, rest => by
      rw [itemsOnto]
      exact .more (l.line_blank (level + 1))
        (spells_writeOnto (level + 1) v _ (endsNumeral_cons (by decide) _))
        (spellsItems_itemsOnto level w ws rest)
termination_by _ v vs => sizeOf v + sizeOf vs

theorem spellsMembers_membersOnto : ∀ (level : Nat) (k : String) (v : Json)
    (ms : List (String × Json)) (rest : List Char), SpellsMembers ((k, v) :: ms)
      (quoteOnto k (':' :: (l.gap ++ writeOnto l (level + 1) v
        (membersOnto l (level + 1) ms (l.line level ++ '\x7d' :: rest))))) rest
  | level, k, v, [], rest => by
      have hend := endsNumeral_append (l.line_blank level)
        (endsNumeral_cons (c := '\x7d') (by decide) rest)
      rw [membersOnto]
      exact .last (l.line_blank level) l.gap_blank (spells_writeOnto (level + 1) v _ hend)
  | level, k, v, (k', w) :: ms, rest => by
      rw [membersOnto]
      exact .more (l.line_blank (level + 1)) l.gap_blank
        (spells_writeOnto (level + 1) v _ (endsNumeral_cons (by decide) _))
        (spellsMembers_membersOnto level k' w ms rest)
termination_by _ _ v ms => sizeOf v + sizeOf ms

end

end Layouts

theorem Spells.parse_eq {j : Json} {text : List Char} (hspells : Spells j text []) :
    Document.parse (String.ofList text) = (j.document, true) := by
  have hread := hspells.read (Document.callBound text) (by rw [Document.callBound]; omega)
  rw [Document.parse, String.toList_ofList]
  simp only [hread]
  rfl

/-- A written value is read back, whatever the layout. -/
theorem parse_write (l : Layout) (j : Json) : Document.parse (j.write l) = (j.document, true) :=
  (spells_writeOnto l 0 j [] endsNumeral_nil).parse_eq

end Uncaught.Json
