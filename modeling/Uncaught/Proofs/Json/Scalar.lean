import Uncaught.Json.Value

/-!
Strings and numbers survive being written and read. A string is read piece by piece, and each
character was written as one piece; an escaped control is far below the surrogate units, so no piece
waits for another. A number is written without leading zeros, and reading stops where the digits do,
if what follows cannot belong to a numeral.
-/

namespace Uncaught.Json

namespace Quotation

theorem read_plain {c : Char} (hquote : c ≠ '"') (hslash : c ≠ '\\') (hcontrol : ¬c < ' ')
    (rest : List Char) : read (c :: rest) = push (.char c) (read rest) := by
  rw [read, if_neg hcontrol] <;> intros <;> contradiction

theorem read_shortEscape {e c : Char} (he : shortEscape? e = some c) (rest : List Char) :
    read ('\\' :: e :: rest) = push (.char c) (read rest) := by
  have hu : e ≠ 'u' := by
    rintro rfl
    cases he
  rw [read, he] <;> simp_all

theorem read_unit {a b c d : Char} {u : Nat} (hu : hexUnit? a b c d = some u) (rest : List Char) :
    read ('\\' :: 'u' :: a :: b :: c :: d :: rest) = push (.unit u) (read rest) := by
  rw [read, hu]

theorem hexUnit?_hexChar :
    ∀ n < 32, hexUnit? '0' '0' (hexChar (n / 16)) (hexChar (n % 16)) = some n := by
  decide

theorem read_escapeChar (c : Char) (rest : List Char) :
    read (escapeChar c ++ rest) = push (escapedPiece c) (read rest) := by
  unfold escapeChar
  split
  case h_8 hquote hslash hb hf hn hr ht =>
    split
    case isTrue hcontrol =>
      have hlt : c.toNat < 32 := hcontrol
      have hpiece : escapedPiece c = .unit c.toNat := if_pos ⟨hcontrol, hb, hf, hn, hr, ht⟩
      rw [hpiece]
      exact read_unit (hexUnit?_hexChar c.toNat hlt) rest
    case isFalse hcontrol =>
      have hpiece : escapedPiece c = .char c := if_neg fun h => hcontrol h.1
      rw [hpiece]
      exact read_plain hquote hslash hcontrol rest
  -- the characters with an escape of their own
  all_goals exact read_shortEscape rfl rest

/-- A written string is read back up to its closing quote. -/
@[simp] theorem read_ofText (s : String) (rest : List Char) :
    read (s.toList.flatMap escapeChar ++ '"' :: rest) = (ofText s, rest) := by
  rw [ofText]
  induction s.toList with
  | nil => rw [List.flatMap_nil, List.nil_append, read, List.map_nil]
  | cons c cs ih =>
      rw [List.flatMap_cons, List.append_assoc, read_escapeChar, ih]
      rfl

theorem chars_unit (ending : QuotationEnd) {u : Nat} (hu : u < 0xD800) (rest : List Piece) :
    chars ending (.unit u :: rest) = (chars ending rest).map (Char.ofNat u :: ·) := by
  have htrailing : isTrailing u = false := by
    simp only [isTrailing, Bool.and_eq_false_iff, decide_eq_false_iff_not]
    omega
  have hleading : isLeading u = false := by
    simp only [isLeading, Bool.and_eq_false_iff, decide_eq_false_iff_not]
    omega
  cases rest with
  | nil => simp [chars, htrailing, hleading]
  | cons piece rest => cases piece <;> simp [chars, htrailing, hleading]

theorem chars_escapedPiece (ending : QuotationEnd) (c : Char) (rest : List Piece) :
    chars ending (escapedPiece c :: rest) = (chars ending rest).map (c :: ·) := by
  unfold escapedPiece
  split
  case isTrue hcontrol =>
    have hlt : c.toNat < 32 := hcontrol.1
    rw [chars_unit ending (by omega), Char.ofNat_toNat]
  case isFalse => rw [chars]

@[simp] theorem text_ofText (s : String) : (ofText s).text = .ok s := by
  have hchars : ∀ cs : List Char, chars .closed (cs.map escapedPiece) = .ok cs := by
    intro cs
    induction cs with
    | nil => rfl
    | cons c cs ih =>
        rw [List.map_cons, chars_escapedPiece, ih]
        rfl
  rw [text, ofText, hchars, Except.map, String.ofList_toList]

end Quotation

/-! ### Numbers -/

/-- A numeral cannot go on with this text. -/
def EndsNumeral (rest : List Char) : Prop :=
  ∀ c ∈ rest.head?, c.isDigit = false ∧ c ≠ '.' ∧ c ≠ 'e' ∧ c ≠ 'E'

theorem numberOf_toDigits (n : Nat) : numberOf (digitsOf (Nat.toDigits 10 n)) = n := by
  have hvalue := Nat.ofDigitChars_ten_toDigits (n := n)
  rw [Nat.ofDigitChars_eq_foldl] at hvalue
  rw [numberOf, digitsOf, List.foldl_map]
  simpa only [Nat.mul_comm 10] using hvalue

theorem le_foldl_digits (ds : List Nat) (n : Nat) : n ≤ ds.foldl (fun n d => n * 10 + d) n := by
  induction ds generalizing n with
  | nil => exact Nat.le_refl n
  | cons d ds ih =>
      have hstep := ih (n * 10 + d)
      rw [List.foldl_cons]
      omega

/-- The digits of a number below `2 ^ 64` are all taken in. -/
theorem absorb_eq (ds : List Nat) (n : Nat)
    (hfits : ds.foldl (fun n d => n * 10 + d) n < UInt64.size) :
    absorb n ds = (ds.foldl (fun n d => n * 10 + d) n, []) := by
  induction ds generalizing n with
  | nil => rfl
  | cons d ds ih =>
      rw [List.foldl_cons] at hfits ⊢
      have hstep := le_foldl_digits ds (n * 10 + d)
      rw [absorb, if_pos (by omega)]
      exact ih (n * 10 + d) hfits

theorem Numeral.value_ofNat {n : Nat} (hn : n < UInt64.size) :
    (Numeral.ofNat n).value = some (.natural n) := by
  have hnumber := numberOf_toDigits n
  have habsorb : absorb 0 (digitsOf (Nat.toDigits 10 n)) = (n, []) := by
    rw [numberOf] at hnumber
    rw [absorb_eq _ 0 (by omega), hnumber]
  simp [value, ofNat, habsorb]

theorem takeDigits_append (ds : List Char) {rest : List Char} (hds : ∀ c ∈ ds, c.isDigit = true)
    (hrest : EndsNumeral rest) : takeDigits (ds ++ rest) = (digitsOf ds, rest) := by
  have hstop : rest.takeWhile Char.isDigit = [] ∧ rest.dropWhile Char.isDigit = rest := by
    cases rest with
    | nil => exact ⟨rfl, rfl⟩
    | cons c rest => simp [(hrest c rfl).1]
  rw [takeDigits, List.takeWhile_append_of_pos hds, List.dropWhile_append_of_pos hds, hstop.1,
    hstop.2, List.append_nil]

theorem isDigit_of_mem_toDigits {n : Nat} {c : Char} (hc : c ∈ Nat.toDigits 10 n) :
    c.isDigit = true :=
  Nat.isDigit_of_mem_toDigits (by decide) (Nat.le_refl 10) hc

/-- Only zero is written with a zero in front. -/
theorem exists_toDigits_eq_cons {n : Nat} (hn : n ≠ 0) :
    ∃ c cs, Nat.toDigits 10 n = c :: cs ∧ c ≠ '0' := by
  induction n using Nat.strongRecOn with
  | ind n ih =>
      by_cases hlt : n < 10
      · have hdigit : ∀ d < 10, d ≠ 0 → d.digitChar ≠ '0' := by decide
        exact ⟨n.digitChar, [], Nat.toDigits_of_lt_base hlt, hdigit n hlt hn⟩
      · obtain ⟨c, cs, hdigits, hc⟩ := ih (n / 10) (by omega) (by omega)
        refine ⟨c, cs ++ [(n % 10).digitChar], ?_, hc⟩
        rw [Nat.toDigits_of_base_le (by decide) (by omega), hdigits, List.cons_append]

theorem readWhole_toDigits (n : Nat) {rest : List Char} (hrest : EndsNumeral rest) :
    readWhole (Nat.toDigits 10 n ++ rest) = .ok (digitsOf (Nat.toDigits 10 n), rest) := by
  by_cases hn : n = 0
  · subst hn
    cases rest with
    | nil => rfl
    | cons c rest =>
        have hc := (hrest c rfl).1
        simp [Nat.toDigits_zero, readWhole, hc, digitsOf]
  · obtain ⟨c, cs, htext, hc⟩ := exists_toDigits_eq_cons hn
    have hdigits := takeDigits_append (Nat.toDigits 10 n) (fun _ => isDigit_of_mem_toDigits) hrest
    rw [htext] at hdigits ⊢
    have hsome : readWhole (c :: cs ++ rest) = someDigits (c :: cs ++ rest) := by
      rw [List.cons_append, readWhole]
      · simp
      · simp [hc]
    rw [hsome, someDigits, hdigits]
    rfl

theorem Numeral.read_ofNat (n : Nat) {rest : List Char} (hrest : EndsNumeral rest) :
    Numeral.read (Nat.toDigits 10 n ++ rest) = .ok (.ofNat n, rest) := by
  have hunsigned : Numeral.read (Nat.toDigits 10 n ++ rest) =
      readUnsigned false (Nat.toDigits 10 n ++ rest) := by
    cases htext : Nat.toDigits 10 n with
    | nil => exact absurd htext Nat.toDigits_ne_nil
    | cons c cs =>
        have hdigit : c.isDigit = true := isDigit_of_mem_toDigits (n := n) (by simp [htext])
        rw [List.cons_append, Numeral.read]
        rintro rest' hminus
        cases hminus
        cases hdigit
  have hfraction : readFraction rest = .ok ([], rest) := by
    unfold readFraction
    split
    · exact absurd rfl (hrest '.' rfl).2.1
    · rfl
  have hexponent : readExponent rest = .ok (none, rest) := by
    unfold readExponent
    split
    · exact absurd rfl (hrest 'e' rfl).2.2.1
    · exact absurd rfl (hrest 'E' rfl).2.2.2
    · rfl
  rw [hunsigned, readUnsigned, readWhole_toDigits n hrest]
  simp [hfraction, hexponent, bind, Except.bind, ofNat]

end Uncaught.Json
