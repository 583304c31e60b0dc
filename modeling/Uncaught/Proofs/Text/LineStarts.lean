import Mathlib.Data.List.DropRight
import Uncaught.Text.Position

/-!
The line of an offset. The starts of the lines up to a place are those found in the bytes before it, all
others come later, so that halving ends at the last start of the first kind. Its number is the number of
line breaks before the place, and it is the offset just after the last of them.
-/

namespace Uncaught

/-- Offsets add up unless the sum leaves their range. -/
theorem toNat_add_of_lt {m n : UInt32} (hlt : m.toNat + n.toNat < UInt32.size) :
    (m + n).toNat = m.toNat + n.toNat := by
  rw [UInt32.toNat_add, Nat.mod_eq_of_lt hlt]

namespace Text

/-- Halving finds the last of the first `m` entries, if these are the entries up to the key. -/
theorem narrow_eq {table : Array UInt32} {key : UInt32} {m base size : Nat}
    (hsplit : ∀ i entry, table[i]? = some entry → (entry ≤ key ↔ i < m)) (hbase : base < m)
    (hm : m ≤ base + size) (hin : base + size ≤ table.size) :
    narrow table key base size = m - 1 := by
  fun_induction narrow table key base size with
  | case1 base size hsize => omega
  | case2 base size hsize middle habove ih =>
      obtain ⟨entry, hentry, hlt⟩ := (Option.any_eq_true _ _).mp habove
      have hmiddle : ¬middle < m := fun hlt' =>
        UInt32.not_le.mpr (of_decide_eq_true hlt) ((hsplit middle entry hentry).mpr hlt')
      exact ih hbase (by omega) (by omega)
  | case3 base size hsize middle habove ih =>
      have hlt : middle < table.size := by omega
      have hle : table[middle] ≤ key := by simpa [hlt] using habove
      have hmiddle := (hsplit middle _ (Array.getElem?_eq_getElem hlt)).mp hle
      exact ih hmiddle (by omega) (by omega)

/-- The last entry up to a key, in a table of entries up to the key and entries above it. -/
theorem last?_search_append {low high : List UInt32} {key : UInt32} (hne : low ≠ [])
    (hlow : ∀ entry ∈ low, entry ≤ key) (hhigh : ∀ entry ∈ high, key < entry) :
    (search (low ++ high).toArray key).last? = some (low.length - 1) := by
  have hpos : 0 < low.length := List.length_pos_iff.mpr hne
  have hsplit : ∀ i entry, (low ++ high).toArray[i]? = some entry →
      (entry ≤ key ↔ i < low.length) := by
    intro i entry hentry
    rw [List.getElem?_toArray] at hentry
    by_cases hi : i < low.length
    · rw [List.getElem?_append_left hi] at hentry
      exact iff_of_true (hlow entry (List.mem_of_getElem? hentry)) hi
    · rw [List.getElem?_append_right (Nat.le_of_not_lt hi)] at hentry
      exact iff_of_false (UInt32.not_le.mpr (hhigh entry (List.mem_of_getElem? hentry))) hi
  have hnarrow : narrow (low ++ high).toArray key 0 (low ++ high).toArray.size = low.length - 1 :=
    narrow_eq hsplit hpos (by simp) (by simp)
  have hentry : (low ++ high).toArray[low.length - 1]? = some (low.getLast hne) := by
    rw [List.getElem?_toArray, List.getElem?_append_left (by omega), ← List.getLast?_eq_getElem?,
      List.getLast?_eq_some_getLast hne]
  have hle := hlow _ (List.getLast_mem hne)
  simp only [search, hnarrow, hentry]
  split
  next => rfl
  next hne' =>
    rw [if_pos (UInt32.lt_of_le_of_ne hle hne'), Nat.sub_add_cancel hpos]
    obtain ⟨n, hn⟩ := Nat.exists_eq_add_one_of_ne_zero hpos.ne'
    rw [hn]
    rfl

@[simp] theorem lineStartsFrom_append (i : Nat) (xs ys : List UInt8) :
    lineStartsFrom i (xs ++ ys) = lineStartsFrom i xs ++ lineStartsFrom (i + xs.length) ys := by
  induction xs generalizing i with
  | nil => rfl
  | cons b xs ih =>
      have hlength : i + (b :: xs).length = i + 1 + xs.length := by
        rw [List.length_cons]
        omega
      rw [List.cons_append, lineStartsFrom, lineStartsFrom, ih, hlength]
      split <;> rfl

theorem length_lineStartsFrom (i : Nat) (bytes : List UInt8) :
    (lineStartsFrom i bytes).length = bytes.count newline := by
  induction bytes generalizing i with
  | nil => rfl
  | cons b bytes ih =>
      rw [lineStartsFrom, List.count_cons]
      by_cases hb : b = newline
      · rw [if_pos hb, if_pos (beq_iff_eq.mpr hb), List.length_cons, ih]
      · rw [if_neg hb, if_neg (mt beq_iff_eq.mp hb), ih, Nat.add_zero]

/-- Lines start after a byte of the text. -/
theorem lt_and_le_of_mem_lineStartsFrom {i : Nat} {bytes : List UInt8}
    (hfits : i + bytes.length < UInt32.size) {start : UInt32} (hstart : start ∈ lineStartsFrom i bytes) :
    i < start.toNat ∧ start.toNat ≤ i + bytes.length := by
  induction bytes generalizing i with
  | nil => exact absurd hstart List.not_mem_nil
  | cons b bytes ih =>
      rw [List.length_cons] at hfits ⊢
      rw [lineStartsFrom] at hstart
      have hrest : start ∈ lineStartsFrom (i + 1) bytes →
          i < start.toNat ∧ start.toNat ≤ i + (bytes.length + 1) := fun hmem => by
        have := ih (by omega) hmem
        omega
      split at hstart
      next =>
        rcases List.mem_cons.mp hstart with rfl | hmem
        · have hnat : (i.toUInt32 + 1).toNat = i + 1 := by
            simp [UInt32.size] at hfits ⊢
            omega
          omega
        · exact hrest hmem
      next => exact hrest hstart

/-- The last start of a line is just after the last line break. -/
theorem getLast_lineStartsFrom {bytes : List UInt8} (hfits : bytes.length < UInt32.size) :
    ((0 :: lineStartsFrom 0 bytes).getLast (List.cons_ne_nil _ _)).toNat =
      (bytes.rdropWhile (· ≠ newline)).length := by
  induction bytes using List.reverseRecOn with
  | nil => rfl
  | append_singleton bytes b ih =>
      rw [List.length_append, List.length_singleton] at hfits
      by_cases hb : b = newline
      · have hlast : lineStartsFrom 0 (bytes ++ [b]) =
            lineStartsFrom 0 bytes ++ [bytes.length.toUInt32 + 1] := by
          rw [lineStartsFrom_append, lineStartsFrom, if_pos hb, Nat.zero_add]
          rfl
        rw [List.rdropWhile_concat_neg _ _ _ (by simp [hb])]
        simp only [hlast, ← List.cons_append, List.getLast_append_singleton]
        simp [UInt32.size] at hfits ⊢
        omega
      · have hlast : lineStartsFrom 0 (bytes ++ [b]) = lineStartsFrom 0 bytes := by
          rw [lineStartsFrom_append, lineStartsFrom, if_neg hb, lineStartsFrom, List.append_nil]
        rw [List.rdropWhile_concat_pos _ _ _ (by simp [hb])]
        simp only [hlast]
        exact ih (by omega)

@[simp] theorem length_bytes (source : String) : (bytes source).length = source.utf8ByteSize := by
  rw [bytes, Array.length_toList]
  exact String.size_toByteArray

/-- The start of the line that a place is on: just after the last line break before it, or at zero if
there is none. -/
def lineStart (source : String) (place : Nat) : Nat :=
  (((bytes source).take place).rdropWhile (· ≠ newline)).length

theorem lineStart_le (source : String) (place : Nat) : lineStart source place ≤ place := by
  have hstarts := List.rdropWhile_prefix (· ≠ newline) ((bytes source).take place)
  exact Nat.le_trans hstarts.length_le (List.length_take_le place _)

/-- The search finds the line that an offset is on; past the end this is the last line. -/
theorem line_of_offset {source : String} (hsource : source.utf8ByteSize < UInt32.size)
    (offset : UInt32) :
    let place := min offset.toNat source.utf8ByteSize
    let line := ((bytes source).take place).count newline
    (search (LineIndex.of source).lineStarts offset).last? = some line ∧
      ∃ start, (LineIndex.of source).lineStarts[line]? = some start ∧
        start.toNat = lineStart source place := by
  intro place line
  have hlength := length_bytes source
  have hplace : ((bytes source).take place).length = place := by
    rw [List.length_take]
    omega
  have hne : 0 :: lineStartsFrom 0 ((bytes source).take place) ≠ [] := List.cons_ne_nil _ _
  have hcount : (0 :: lineStartsFrom 0 ((bytes source).take place)).length - 1 = line :=
    length_lineStartsFrom 0 _
  have hstarts : (LineIndex.of source).lineStarts =
      ((0 :: lineStartsFrom 0 ((bytes source).take place)) ++
        lineStartsFrom place ((bytes source).drop place)).toArray := by
    have happend := lineStartsFrom_append 0 ((bytes source).take place) ((bytes source).drop place)
    rw [List.take_append_drop, hplace, Nat.zero_add] at happend
    rw [LineIndex.of, happend, List.cons_append]
  have hlow : ∀ entry ∈ 0 :: lineStartsFrom 0 ((bytes source).take place), entry ≤ offset := by
    intro entry hentry
    rcases List.mem_cons.mp hentry with rfl | hentry
    · exact UInt32.zero_le
    · have hbounds := lt_and_le_of_mem_lineStartsFrom (by omega) hentry
      rw [UInt32.le_iff_toNat_le]
      omega
  have hhigh : ∀ entry ∈ lineStartsFrom place ((bytes source).drop place), offset < entry := by
    intro entry hentry
    by_cases hpast : source.utf8ByteSize ≤ offset.toNat
    · rw [List.drop_eq_nil_of_le (by omega)] at hentry
      exact absurd hentry List.not_mem_nil
    · have hfits : place + ((bytes source).drop place).length < UInt32.size := by
        rw [List.length_drop]
        omega
      have hbounds := lt_and_le_of_mem_lineStartsFrom hfits hentry
      rw [UInt32.lt_iff_toNat_lt]
      omega
  refine ⟨?_, _, ?_, getLast_lineStartsFrom (by omega)⟩
  · rw [hstarts, last?_search_append hne hlow hhigh, hcount]
  · rw [hstarts, List.getElem?_toArray, ← hcount, List.getElem?_append_left (by simp),
      ← List.getLast?_eq_getElem?, List.getLast?_eq_some_getLast hne]

end Text

end Uncaught
