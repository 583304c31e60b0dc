import Mathlib.Data.Nat.Digits.Lemmas
import Uncaught.Fingerprint.Basic

/-!
The base-62 text of a word is a positional code of fixed width. A word of 64 bits has at most eleven
digits, because `2 ^ 64` is below `62 ^ 11`; the zeros that fill them up do not change the number that they
write. Reading the text gives the word back. The characters are in the order of the digits, so of two texts
that one comes first whose word is smaller.
-/

namespace Uncaught.Base62

theorem digits_eq (n : Nat) : digits n = Nat.digits 62 n := by
  fun_induction digits n with
  | case1 => rw [Nat.digits_zero]
  | case2 n hn ih => rw [Nat.digits_def' (by decide) (Nat.pos_of_ne_zero hn), ih]

/-- The digits of a word with the zeros that fill them up, the most significant first. -/
def places (v : UInt64) : List Nat := (Nat.digitsAppend 62 width v.toNat).reverse

theorem encode_eq (v : UInt64) : encode v = String.ofList ((places v).map digitChar) := by
  have hzero : '0' = digitChar 0 := rfl
  rw [encode, digits_eq, hzero, List.rightpad, List.length_map, places, Nat.digitsAppend,
    List.map_reverse, List.map_append, List.map_replicate]

theorem toNat_lt_pow_width (v : UInt64) : v.toNat < 62 ^ width :=
  Nat.lt_trans v.toNat_lt (by decide)

@[simp] theorem length_places (v : UInt64) : (places v).length = width := by
  rw [places, List.length_reverse, Nat.length_digitsAppend (by decide) _ (toNat_lt_pow_width v)]

theorem lt_of_mem_places {v : UInt64} {d : Nat} (hd : d ∈ places v) : d < 62 :=
  Nat.lt_of_mem_digitsAppend (by decide) width d (List.mem_reverse.mp hd)

@[simp] theorem ofDigits_places (v : UInt64) : Nat.ofDigits 62 (places v).reverse = v.toNat := by
  rw [places, List.reverse_reverse, Nat.digitsAppend, Nat.ofDigits_append_replicate_zero,
    Nat.ofDigits_digits]

/-- The digit that a character stands for. -/
def charDigit? (c : Char) : Option Nat :=
  if '0' ≤ c ∧ c ≤ '9' then some (c.toNat - '0'.toNat)
  else if 'A' ≤ c ∧ c ≤ 'Z' then some (c.toNat - 'A'.toNat + 10)
  else if 'a' ≤ c ∧ c ≤ 'z' then some (c.toNat - 'a'.toNat + 36)
  else none

/-- The number whose base-62 digits a text writes. -/
def decode? (s : String) : Option Nat :=
  s.toList.foldlM (fun n c => (charDigit? c).map (n * 62 + ·)) 0

theorem charDigit?_digitChar {d : Nat} (hd : d < 62) : charDigit? (digitChar d) = some d := by
  revert d
  decide

/-- Reading digits after a number shifts it by their count and adds what they write. -/
theorem foldlM_digitChar {ds : List Nat} (hds : ∀ d ∈ ds, d < 62) (n : Nat) :
    (ds.map digitChar).foldlM (fun n c => (charDigit? c).map (n * 62 + ·)) n =
      some (n * 62 ^ ds.length + Nat.ofDigits 62 ds.reverse) := by
  induction ds generalizing n with
  | nil => simp
  | cons d ds ih =>
      obtain ⟨hd, hds⟩ := List.forall_mem_cons.mp hds
      rw [List.map_cons, List.foldlM_cons, charDigit?_digitChar hd, Option.map_some]
      refine (ih hds _).trans (congrArg some ?_)
      rw [Nat.ofDigits_reverse_cons, List.length_cons]
      ring

theorem decode?_encode (v : UInt64) : decode? (encode v) = some v.toNat := by
  rw [decode?, encode_eq, String.toList_ofList, foldlM_digitChar fun d => lt_of_mem_places,
    Nat.zero_mul, Nat.zero_add, ofDigits_places]

theorem encode_injective : Function.Injective encode := by
  intro v w heq
  have hread : some v.toNat = some w.toNat := by rw [← decode?_encode, ← decode?_encode, heq]
  exact UInt64.toNat_inj.mp (Option.some.inj hread)

/-- The characters in the order of the digits that they stand for. -/
def alphabet : List Char :=
  "0123456789ABCDEFGHIJKLMNOPQRSTUVWXYZabcdefghijklmnopqrstuvwxyz".toList

theorem alphabet_eq : alphabet = (List.range 62).map digitChar := by decide +kernel

theorem digitChar_mem_alphabet {d : Nat} (hd : d < 62) : digitChar d ∈ alphabet := by
  rw [alphabet_eq]
  exact List.mem_map_of_mem (List.mem_range.mpr hd)

theorem digitChar_injOn : Set.InjOn digitChar {d | d < 62} := by
  intro d hd e he heq
  have hread : some d = some e := by
    rw [← charDigit?_digitChar hd, ← charDigit?_digitChar he, heq]
  exact Option.some.inj hread

theorem idxOf_digitChar {d : Nat} (hd : d < 62) : alphabet.idxOf (digitChar d) = d := by
  have hnodup : ((List.range 62).map digitChar).Nodup :=
    List.nodup_range.map_on fun d hd e he heq =>
      digitChar_injOn (List.mem_range.mp hd) (List.mem_range.mp he) heq
  have hplace := hnodup.idxOf_getElem d (by simpa using hd)
  rwa [List.getElem_map, List.getElem_range, ← alphabet_eq] at hplace

theorem map_idxOf_encode (v : UInt64) : (encode v).toList.map alphabet.idxOf = places v := by
  rw [encode_eq, String.toList_ofList, List.map_map]
  calc (places v).map (alphabet.idxOf ∘ digitChar)
      = (places v).map id := List.map_congr_left fun d hd => idxOf_digitChar (lt_of_mem_places hd)
    _ = places v := List.map_id _

/-- The byte of a digit below 62. -/
def digitByte (d : Nat) : UInt8 := (digitChar d).val.toUInt8

theorem utf8EncodeChar_digitChar {d : Nat} (hd : d < 62) :
    String.utf8EncodeChar (digitChar d) = [digitByte d] := by
  have hsize : (digitChar d).utf8Size = 1 := by
    revert d
    decide
  exact String.utf8EncodeChar_eq_singleton hsize

theorem bytes_digitChar {ds : List Nat} (hds : ∀ d ∈ ds, d < 62) :
    (String.ofList (ds.map digitChar)).toUTF8.data.toList = ds.map digitByte := by
  rw [String.toUTF8, String.toByteArray_ofList]
  induction ds with
  | nil => rfl
  | cons d ds ih =>
      obtain ⟨hd, hds⟩ := List.forall_mem_cons.mp hds
      rw [List.map_cons, List.utf8Encode_cons, ByteArray.toList_data_append, ih hds,
        List.utf8Encode_singleton, utf8EncodeChar_digitChar hd]
      rfl

theorem toNat_digitByte {d : Nat} (hd : d < 62) :
    (digitByte d).toNat = if d < 10 then 48 + d else if d < 36 then 55 + d else 61 + d := by
  revert d
  decide

theorem digitByte_lt_iff {d e : Nat} (hd : d < 62) (he : e < 62) :
    digitByte d < digitByte e ↔ d < e := by
  rw [UInt8.lt_iff_toNat_lt, toNat_digitByte hd, toNat_digitByte he]
  split_ifs <;> omega

theorem digitByte_inj {d e : Nat} (hd : d < 62) (he : e < 62) :
    digitByte d = digitByte e ↔ d = e := by
  rw [← UInt8.toNat_inj, toNat_digitByte hd, toNat_digitByte he]
  split_ifs <;> omega

/-- Where the rests are below the weight of the leading digits, these are compared first. -/
theorem add_mul_lt_add_mul_iff {weight x y d e : Nat} (hx : x < weight) (hy : y < weight) :
    x + weight * d < y + weight * e ↔ d < e ∨ d = e ∧ x < y := by
  rcases Nat.lt_trichotomy d e with hlt | rfl | hgt
  · have hstep : weight * (d + 1) ≤ weight * e := Nat.mul_le_mul_left weight hlt
    rw [Nat.mul_add_one] at hstep
    omega
  · omega
  · have hstep : weight * (e + 1) ≤ weight * d := Nat.mul_le_mul_left weight hgt
    rw [Nat.mul_add_one] at hstep
    omega

theorem ofDigits_reverse_lt {ds : List Nat} (hds : ∀ d ∈ ds, d < 62) :
    Nat.ofDigits 62 ds.reverse < 62 ^ ds.length := by
  rw [← List.length_reverse]
  exact Nat.ofDigits_lt_base_pow_length (by decide) fun d hd => hds d (List.mem_reverse.mp hd)

/-- Of two texts with as many digits, the bytes are in the order of the numbers. -/
theorem map_digitByte_lt_iff {ds es : List Nat} (hlength : ds.length = es.length)
    (hds : ∀ d ∈ ds, d < 62) (hes : ∀ e ∈ es, e < 62) :
    ds.map digitByte < es.map digitByte ↔
      Nat.ofDigits 62 ds.reverse < Nat.ofDigits 62 es.reverse := by
  induction ds generalizing es with
  | nil =>
      obtain rfl := List.length_eq_zero_iff.mp hlength.symm
      simp
  | cons d ds ih =>
      cases es with
      | nil => cases hlength
      | cons e es =>
          obtain ⟨hd, hds⟩ := List.forall_mem_cons.mp hds
          obtain ⟨he, hes⟩ := List.forall_mem_cons.mp hes
          have hlength : ds.length = es.length := Nat.succ.inj hlength
          have hx := ofDigits_reverse_lt hds
          have hy := ofDigits_reverse_lt hes
          rw [← hlength] at hy
          rw [List.map_cons, List.map_cons, List.cons_lt_cons_iff, digitByte_lt_iff hd he,
            digitByte_inj hd he, ih hlength hds hes, Nat.ofDigits_reverse_cons,
            Nat.ofDigits_reverse_cons, ← hlength, add_mul_lt_add_mul_iff hx hy]

theorem bytes_encode (v : UInt64) : (encode v).toUTF8.data.toList = (places v).map digitByte := by
  rw [encode_eq, bytes_digitChar fun d => lt_of_mem_places]

theorem lt_iff_bytes_lt (v w : UInt64) :
    v < w ↔ (encode v).toUTF8.data.toList < (encode w).toUTF8.data.toList := by
  have hlength : (places v).length = (places w).length := by rw [length_places, length_places]
  rw [bytes_encode, bytes_encode, map_digitByte_lt_iff hlength (fun d => lt_of_mem_places)
    (fun d => lt_of_mem_places), ofDigits_places, ofDigits_places, UInt64.lt_iff_toNat_lt]

/-- **The base-62 text of a word is a positional code of fixed width.** It has eleven characters, all of
them from the alphabet; their places in the alphabet, read as base-62 digits with the most significant
first, give the word back; and words are in the order of their texts, compared byte by byte from the
front. -/
theorem encode_positional :
    (∀ v : UInt64, (encode v).length = 11 ∧ (∀ c ∈ (encode v).toList, c ∈ alphabet) ∧
      Nat.ofDigits 62 ((encode v).toList.map alphabet.idxOf).reverse = v.toNat ∧
      decode? (encode v) = some v.toNat) ∧
    ∀ v w : UInt64, v < w ↔ (encode v).toUTF8.data.toList < (encode w).toUTF8.data.toList := by
  refine ⟨fun v => ⟨?_, ?_, ?_, decode?_encode v⟩, lt_iff_bytes_lt⟩
  · rw [encode_eq, String.length_ofList, List.length_map, length_places, width]
  · intro c hc
    rw [encode_eq, String.toList_ofList] at hc
    obtain ⟨d, hd, rfl⟩ := List.mem_map.mp hc
    exact digitChar_mem_alphabet (lt_of_mem_places hd)
  · rw [map_idxOf_encode, ofDigits_places]

/-- The greatest word takes all eleven places; the one before it has a smaller last digit. -/
theorem encode_positional_greatest :
    encode 0xFFFFFFFFFFFFFFFE = "LygHa16AHYE" ∧ encode 0xFFFFFFFFFFFFFFFF = "LygHa16AHYF" ∧
      'L' ∈ alphabet ∧
      "LygHa16AHYE".toUTF8.data.toList < "LygHa16AHYF".toUTF8.data.toList := by
  have hlast : encode 0xFFFFFFFFFFFFFFFF = "LygHa16AHYF" := by decide +kernel
  have hbefore : encode 0xFFFFFFFFFFFFFFFE = "LygHa16AHYE" := by decide +kernel
  obtain ⟨hwords, horder⟩ := encode_positional
  refine ⟨hbefore, hlast, ?_, ?_⟩
  · exact (hwords 0xFFFFFFFFFFFFFFFF).2.1 'L' (by rw [hlast]; decide)
  · rw [← hbefore, ← hlast]
    exact (horder _ _).mp (by decide)

end Uncaught.Base62
