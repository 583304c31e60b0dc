import Mathlib.Data.String.Basic
import Uncaught.Proofs.Text.LineStarts

/-!
Lines and columns are exact. A line starts between characters, because the byte of a line break is a
character of its own; so a place that stands between characters cuts its line there, and the columns
before it are the characters of the cut. Later places of this kind are on later lines or have more columns
before them.
-/

namespace Uncaught.Text

open String.Pos.Raw (IsValid)

theorem extract_append (a m r : String) :
    String.Pos.Raw.extract (a ++ m ++ r) ⟨a.utf8ByteSize⟩ ⟨(a ++ m).utf8ByteSize⟩ = m := by
  have hvalid := String.extract_of_valid a.toList m.toList r.toList
  rw [String.utf8Len_toList, String.utf8Len_toList, String.ofList_append, String.ofList_append,
    String.ofList_toList, String.ofList_toList, String.ofList_toList] at hvalid
  rw [String.utf8ByteSize_append]
  exact hvalid

theorem isValid_of_append {front back : String} {p : Nat} (hp : IsValid (front ++ back) ⟨p⟩)
    (hle : p ≤ front.utf8ByteSize) : IsValid front ⟨p⟩ := by
  rcases String.Pos.Raw.isValid_append.mp hp with hp | ⟨hge, -⟩
  · exact hp
  · have hge : front.utf8ByteSize ≤ p := hge
    obtain rfl : p = front.utf8ByteSize := by omega
    exact String.Pos.Raw.isValid_rawEndPos

/-- A cut between characters leaves two parts. -/
theorem exists_eq_append {s : String} {p : Nat} (hp : IsValid s ⟨p⟩) :
    ∃ a r, s = a ++ r ∧ p = a.utf8ByteSize := by
  obtain ⟨a, r, hs, ha⟩ := String.Pos.Raw.isValid_iff_exists_append.mp hp
  exact ⟨a, r, hs, congrArg String.Pos.Raw.byteIdx ha⟩

theorem exists_eq_singleton_append {s : String} (hs : 0 < s.utf8ByteSize) :
    ∃ c rest, s = String.singleton c ++ rest := by
  cases hlist : s.toList with
  | nil =>
      rw [← String.utf8Len_toList, hlist] at hs
      exact absurd hs (Nat.lt_irrefl 0)
  | cons c cs =>
      refine ⟨c, String.ofList cs, ?_⟩
      rw [String.singleton_eq_ofList, ← String.ofList_append, ← String.ofList_toList (s := s), hlist]
      rfl

theorem length_le_utf8ByteSize (s : String) : s.length ≤ s.utf8ByteSize := by
  rw [← String.utf8Len_toList, ← String.length_toList]
  induction s.toList with
  | nil => exact Nat.zero_le _
  | cons c cs ih =>
      rw [List.length_cons, String.utf8Len_cons]
      have := c.utf8Size_pos
      omega

theorem length_extract_le {s : String} {p e : Nat} (hp : IsValid s ⟨p⟩) (he : IsValid s ⟨e⟩)
    (hle : p ≤ e) : (String.Pos.Raw.extract s ⟨p⟩ ⟨e⟩).length ≤ e - p := by
  obtain ⟨b, r, rfl, rfl⟩ := exists_eq_append he
  obtain ⟨a, m, rfl, rfl⟩ := exists_eq_append (isValid_of_append hp hle)
  have hlength := length_le_utf8ByteSize m
  rw [extract_append, String.utf8ByteSize_append]
  omega

/-- A longer cut has more characters. -/
theorem length_extract_lt {s : String} {p e e' : Nat} (hp : IsValid s ⟨p⟩) (he : IsValid s ⟨e⟩)
    (he' : IsValid s ⟨e'⟩) (hle : p ≤ e) (hlt : e < e') :
    (String.Pos.Raw.extract s ⟨p⟩ ⟨e⟩).length < (String.Pos.Raw.extract s ⟨p⟩ ⟨e'⟩).length := by
  obtain ⟨d, r, rfl, rfl⟩ := exists_eq_append he'
  obtain ⟨b, n, rfl, rfl⟩ := exists_eq_append (isValid_of_append he (by omega))
  have hcut : IsValid (b ++ n) ⟨p⟩ := isValid_of_append hp (by omega)
  obtain ⟨a, m, rfl, rfl⟩ := exists_eq_append (isValid_of_append hcut hle)
  have hshort : String.Pos.Raw.extract (a ++ m ++ n ++ r) ⟨a.utf8ByteSize⟩ ⟨(a ++ m).utf8ByteSize⟩ = m := by
    have hextract := extract_append a m (n ++ r)
    rwa [← String.append_assoc] at hextract
  have hlong : String.Pos.Raw.extract (a ++ m ++ n ++ r) ⟨a.utf8ByteSize⟩ ⟨(a ++ m ++ n).utf8ByteSize⟩ =
      m ++ n := by
    have hextract := extract_append a (m ++ n) r
    rwa [← String.append_assoc] at hextract
  rw [String.utf8ByteSize_append (s := a ++ m)] at hlt
  obtain ⟨c, rest, rfl⟩ := exists_eq_singleton_append (s := n) (by omega)
  rw [hshort, hlong, String.length_append, String.length_append, String.length_singleton]
  omega

theorem bytes_append (s t : String) : bytes (s ++ t) = bytes s ++ bytes t := by
  simp [bytes]

theorem bytes_singleton (c : Char) : bytes (String.singleton c) = String.utf8EncodeChar c := by
  simp [bytes, List.utf8Encode_singleton]

/-- Only a character of one byte has the byte of a line break first. -/
theorem utf8Size_of_newline {c : Char} (hc : (String.utf8EncodeChar c)[0]? = some newline) :
    c.utf8Size = 1 := by
  have hbyte : ∀ n < 256, UInt8.ofNat n = newline → n = 10 := by
    intro n hn heq
    have hnat := congrArg UInt8.toNat heq
    rwa [UInt8.toNat_ofNat_of_lt' hn] at hnat
  rw [Char.utf8Size_eq_one_iff, UInt32.le_iff_toNat_le]
  revert hc
  fun_cases String.utf8EncodeChar c with
  | case1 v hv => exact fun _ => hv
  | case2 v => exact fun hc => absurd (hbyte _ (by omega) (Option.some.inj hc)) (by omega)
  | case3 v => exact fun hc => absurd (hbyte _ (by omega) (Option.some.inj hc)) (by omega)
  | case4 v => exact fun hc => absurd (hbyte _ (by omega) (Option.some.inj hc)) (by omega)

/-- The byte of a line break is a character of its own. -/
theorem isValid_after_newline {s : String} {i : Nat} (hi : (bytes s)[i]? = some newline) :
    IsValid s ⟨i + 1⟩ := by
  obtain ⟨hlt, hbyte⟩ := List.getElem?_eq_some_iff.mp hi
  have hsize := length_bytes s
  have hfirst : IsValid s ⟨i⟩ := by
    have hend : (⟨i⟩ : String.Pos.Raw) < s.rawEndPos := by
      show i < s.utf8ByteSize
      omega
    have hget : s.getUTF8Byte ⟨i⟩ hend = newline := hbyte
    refine String.Pos.Raw.isValid_iff_isUTF8FirstByte.mpr (Or.inr ⟨hend, ?_⟩)
    rw [hget]
    decide
  obtain ⟨front, back, rfl, rfl⟩ := exists_eq_append hfirst
  rw [String.utf8ByteSize_append] at hsize
  obtain ⟨c, rest, rfl⟩ := exists_eq_singleton_append (s := back) (by omega)
  have hc : (String.utf8EncodeChar c)[0]? = some newline := by
    rw [bytes_append, bytes_append, bytes_singleton,
      List.getElem?_append_right (Nat.le_of_eq (length_bytes front)), length_bytes, Nat.sub_self,
      List.getElem?_append_left (by simp [c.utf8Size_pos])] at hi
    exact hi
  refine String.Pos.Raw.isValid_iff_exists_append.mpr
    ⟨front ++ String.singleton c, rest, (String.append_assoc ..).symm, ?_⟩
  have hend : (front ++ String.singleton c).utf8ByteSize = front.utf8ByteSize + 1 := by
    rw [String.utf8ByteSize_append, String.utf8ByteSize_singleton, utf8Size_of_newline hc]
  exact congrArg String.Pos.Raw.mk hend.symm

/-- Lines start between characters. -/
theorem isValid_lineStart (source : String) (place : Nat) : IsValid source ⟨lineStart source place⟩ := by
  rw [lineStart]
  have hstarts := List.rdropWhile_prefix (· ≠ newline) ((bytes source).take place)
  have hfront := hstarts.trans <| List.take_prefix place (bytes source)
  have hlast := List.rdropWhile_last_not (· ≠ newline) ((bytes source).take place)
  generalize ((bytes source).take place).rdropWhile (· ≠ newline) = front at hfront hlast
  rcases List.eq_nil_or_concat front with rfl | ⟨init, b, rfl⟩
  · exact String.Pos.Raw.isValid_zero
  · have hb : b = newline := by simpa using hlast
    obtain ⟨back, hback⟩ := hfront
    have hbreak : (bytes source)[init.length]? = some newline := by
      rw [← hback, hb]
      simp
    rw [List.length_concat]
    exact isValid_after_newline hbreak

/-! ### Columns -/

/-- The columns before a place on its line: the characters up to there or, inside a character, the
bytes. -/
def columnsBefore (source : String) (place : Nat) : Nat :=
  if IsValid source ⟨place⟩ then
    (String.Pos.Raw.extract source ⟨lineStart source place⟩ ⟨place⟩).length
  else place - lineStart source place

theorem columnsBefore_le (source : String) (place : Nat) :
    columnsBefore source place ≤ place - lineStart source place := by
  rw [columnsBefore]
  split
  next hvalid =>
    exact length_extract_le (isValid_lineStart source place) hvalid (lineStart_le source place)
  next => exact Nat.le_refl _

theorem toNat_length (r : TextRange) : r.length.toNat = r.stop.toNat - r.start.toNat := by
  rw [TextRange.length]
  split
  next hle => exact (Nat.sub_eq_zero_of_le (UInt32.le_iff_toNat_le.mp hle)).symm
  next hlt => exact UInt32.toNat_sub_of_le _ _ (UInt32.le_of_lt (UInt32.not_le.mp hlt))

theorem toNat_columns {source : String} {place : Nat} {start stop : UInt32}
    (hstart : start.toNat = lineStart source place) (hstop : stop.toNat = place) :
    (columns source ⟨start, stop⟩).toNat = columnsBefore source place := by
  have hle : start ≤ stop := by
    rw [UInt32.le_iff_toNat_le, hstart, hstop]
    exact lineStart_le source place
  have hbound : columnsBefore source place < UInt32.size := by
    have := columnsBefore_le source place
    have := stop.toNat_lt_size
    omega
  have hslice : slice? source ⟨start, stop⟩ = if IsValid source ⟨place⟩ then
      some (String.Pos.Raw.extract source ⟨lineStart source place⟩ ⟨place⟩) else none := by
    simp only [slice?, hstart, hstop, hle, String.Pos.Raw.isValid_eq_true_iff,
      isValid_lineStart source place, true_and]
  rw [columnsBefore] at hbound ⊢
  by_cases hvalid : IsValid source ⟨place⟩
  · rw [if_pos hvalid] at hslice hbound ⊢
    rw [columns, hslice]
    exact UInt32.toNat_ofNat_of_lt' hbound
  · rw [if_neg hvalid] at hslice ⊢
    rw [columns, hslice, ← hstart, ← hstop]
    exact toNat_length ⟨start, stop⟩

theorem toNat_clamp {source : String} (hsource : source.utf8ByteSize < UInt32.size)
    (offset : UInt32) : (clamp source offset).toNat = min offset.toNat source.utf8ByteSize := by
  have hsize : source.utf8ByteSize.toUInt32.toNat = source.utf8ByteSize :=
    UInt32.toNat_ofNat_of_lt' hsource
  simp only [clamp, UInt32.le_iff_toNat_le, hsize]
  split <;> omega

theorem position?_of (source : String) (offset : UInt32) :
    (LineIndex.of source).position? offset = some (position source offset) :=
  (Option.some_get _).symm

theorem position_eq {source : String} {offset start : UInt32} {line : Nat}
    (hline : (search (LineIndex.of source).lineStarts offset).last? = some line)
    (hstart : (LineIndex.of source).lineStarts[line]? = some start) :
    position source offset = ⟨line.toUInt32 + 1, columns source ⟨start, clamp source offset⟩ +
      (TextRange.mk (clamp source offset) offset).length + 1⟩ := by
  have hposition := position?_of source offset
  simp only [LineIndex.position?, hline, hstart, Option.bind_eq_bind, Option.bind_some] at hposition
  exact (Option.some.inj hposition).symm

/-- The numbers of a position: neither of them wraps around. -/
theorem toNat_position {source : String} (hsource : source.utf8ByteSize < UInt32.size - 1)
    {offset : UInt32} (hoffset : offset.toNat < UInt32.size - 1) {place : Nat}
    (hplace : place = min offset.toNat source.utf8ByteSize) :
    (position source offset).line.toNat = 1 + ((bytes source).take place).count newline ∧
    (position source offset).column.toNat =
      1 + columnsBefore source place + (offset.toNat - place) := by
  have hfits : source.utf8ByteSize < UInt32.size := by omega
  obtain ⟨hline, start, hstart, hnat⟩ := line_of_offset hfits offset
  have hclamp := toNat_clamp hfits offset
  rw [← hplace] at hline hstart hnat hclamp
  have hcolumns := toNat_columns hnat hclamp
  have hmissing : (TextRange.mk (clamp source offset) offset).length.toNat = offset.toNat - place := by
    rw [toNat_length, ← hclamp]
  have hcount : ((bytes source).take place).count newline ≤ place :=
    List.count_le_length.trans (List.length_take_le _ _)
  have hnumber : (((bytes source).take place).count newline).toUInt32.toNat =
      ((bytes source).take place).count newline := UInt32.toNat_ofNat_of_lt' (by omega)
  have hle := columnsBefore_le source place
  have hone : (1 : UInt32).toNat = 1 := rfl
  rw [position_eq hline hstart]
  constructor
  · rw [toNat_add_of_lt (by omega)]
    omega
  · have hsum := toNat_add_of_lt (m := columns source ⟨start, clamp source offset⟩)
      (n := (TextRange.mk (clamp source offset) offset).length) (by omega)
    rw [toNat_add_of_lt (by omega)]
    omega

/-- One position comes before another in the text. -/
def Position.Before (a b : Position) : Prop := a.line < b.line ∨ a.line = b.line ∧ a.column < b.column

theorem Position.Before.irrefl {a : Position} (hbefore : a.Before a) : False := by
  rcases hbefore with hlt | ⟨-, hlt⟩
  · exact UInt32.lt_irrefl _ hlt
  · exact UInt32.lt_irrefl _ hlt

/-- An offset between characters or past the end. -/
def Between (source : String) (offset : UInt32) : Prop :=
  IsValid source ⟨offset.toNat⟩ ∨ source.utf8ByteSize < offset.toNat

theorem Between.isValid_place {source : String} {offset : UInt32} (hbetween : Between source offset) :
    IsValid source ⟨min offset.toNat source.utf8ByteSize⟩ := by
  rcases hbetween with hvalid | hpast
  · rw [Nat.min_eq_left hvalid.le_utf8ByteSize]
    exact hvalid
  · rw [Nat.min_eq_right (by omega)]
    exact String.Pos.Raw.isValid_rawEndPos

/-- Without a line break between them two places are on one line. -/
theorem lineStart_eq_of_count_eq {source : String} {a b : Nat} (hle : a ≤ b)
    (hcount : ((bytes source).take a).count newline = ((bytes source).take b).count newline) :
    lineStart source a = lineStart source b := by
  obtain ⟨k, rfl⟩ := Nat.exists_eq_add_of_le hle
  rw [List.take_add, List.count_append] at hcount
  have hnone : ∀ x ∈ (((bytes source).drop a).take k).reverse, decide (x ≠ newline) = true := by
    intro x hx
    refine decide_eq_true fun hnew => ?_
    have := List.count_pos_iff.mpr (hnew ▸ List.mem_reverse.mp hx)
    omega
  rw [lineStart, lineStart, List.take_add, List.rdropWhile, List.rdropWhile, List.reverse_append,
    List.dropWhile_append_of_pos hnone]

theorem columnsBefore_lt {source : String} {a b : Nat} (ha : IsValid source ⟨a⟩)
    (hb : IsValid source ⟨b⟩) (hlt : a < b) (hline : lineStart source a = lineStart source b) :
    columnsBefore source a < columnsBefore source b := by
  rw [columnsBefore, columnsBefore, if_pos ha, if_pos hb, ← hline]
  exact length_extract_lt (isValid_lineStart source a) ha hb (lineStart_le source a) hlt

theorem before_of_lt {source : String} (hsource : source.utf8ByteSize < UInt32.size - 1)
    {a b : UInt32} (hlt : a < b) (hbound : b.toNat < UInt32.size - 1) (ha : Between source a)
    (hb : Between source b) : (position source a).Before (position source b) := by
  rw [UInt32.lt_iff_toNat_lt] at hlt
  have haplace := ha.isValid_place
  have hbplace := hb.isValid_place
  generalize hp : min a.toNat source.utf8ByteSize = p at haplace
  generalize hq : min b.toNat source.utf8ByteSize = q at hbplace
  have hle : p ≤ q := by omega
  obtain ⟨haline, hacolumn⟩ := toNat_position hsource (by omega : a.toNat < _) hp.symm
  obtain ⟨hbline, hbcolumn⟩ := toNat_position hsource hbound hq.symm
  have hcount : ((bytes source).take p).count newline ≤ ((bytes source).take q).count newline :=
    (List.take_sublist_take_left hle).count_le newline
  rw [Position.Before, UInt32.lt_iff_toNat_lt, UInt32.lt_iff_toNat_lt, ← UInt32.toNat_inj]
  rcases Nat.lt_or_eq_of_le hcount with hcount | hcount
  · left
    omega
  · right
    refine ⟨by omega, ?_⟩
    rcases Nat.lt_or_eq_of_le hle with hpq | rfl
    · -- before the end a place is its offset
      have hcolumns := columnsBefore_lt haplace hbplace hpq (lineStart_eq_of_count_eq hle hcount)
      omega
    · omega

/-- **Positions are exact.** On a text shorter than offsets can count, no step of the computation leaves
its range. The line of an offset is one more than the line breaks before it. Its column is one more than
the characters of its line before it or, inside a character, the bytes of its line before it; past the end,
every missing byte is a column. There is one line more than there are line breaks. So of two offsets that
stand between characters or past the end the lower has the earlier position. -/
theorem position_exact (source : String) (hsource : source.utf8ByteSize < UInt32.size - 1) :
    (∀ offset : UInt32, offset.toNat < UInt32.size - 1 →
      let e := min offset.toNat source.utf8ByteSize
      let p := lineStart source e
      (LineIndex.of source).position? offset = some (position source offset) ∧ p ≤ e ∧
      (position source offset).line.toNat = 1 + ((bytes source).take e).count newline ∧
      (position source offset).column.toNat = 1 +
        (if IsValid source ⟨e⟩ then (String.Pos.Raw.extract source ⟨p⟩ ⟨e⟩).length else e - p) +
        (offset.toNat - e)) ∧
    lineCount source = 1 + (bytes source).count newline ∧
    ∀ a b : UInt32, b.toNat < UInt32.size - 1 → Between source a → Between source b → a < b →
      (position source a).Before (position source b) ∧ position source a ≠ position source b := by
  refine ⟨fun offset hoffset => ?_, ?_, fun a b hbound ha hb hlt => ?_⟩
  · obtain ⟨hline, hcolumn⟩ := toNat_position hsource hoffset rfl
    exact ⟨position?_of source offset, lineStart_le source _, hline, hcolumn⟩
  · rw [lineCount, LineIndex.of, List.size_toArray, List.length_cons, length_lineStartsFrom]
    exact Nat.add_comm _ 1
  · have hbefore := before_of_lt hsource hlt hbound ha hb
    exact ⟨hbefore, fun heq => (heq ▸ hbefore).irrefl⟩

/-- Two lines with characters of two and of three bytes: an offset inside the second of them, and one
past the end. -/
theorem position_exact_twoLines :
    "é\n→x".utf8ByteSize < UInt32.size - 1 ∧
    (position "é\n→x" 5).line.toNat = 2 ∧ (position "é\n→x" 5).column.toNat = 3 ∧
    (position "é\n→x" 9).line.toNat = 2 ∧ (position "é\n→x" 9).column.toNat = 5 ∧
    Between "é\n→x" 3 ∧ Between "é\n→x" 9 ∧ (position "é\n→x" 3).Before (position "é\n→x" 9) := by
  have hsource : "é\n→x".utf8ByteSize < UInt32.size - 1 := by decide
  have hfirst : Between "é\n→x" 3 := Or.inl (by decide)
  have hpast : Between "é\n→x" 9 := Or.inr (by decide)
  obtain ⟨hexact, -, horder⟩ := position_exact "é\n→x" hsource
  obtain ⟨-, -, hline, hcolumn⟩ := hexact 5 (by decide)
  obtain ⟨-, -, hlast, hmissing⟩ := hexact 9 (by decide)
  exact ⟨hsource, hline.trans (by decide +kernel), hcolumn.trans (by decide +kernel),
    hlast.trans (by decide +kernel), hmissing.trans (by decide +kernel), hfirst, hpast,
    (horder 3 9 (by decide) hfirst hpast (by decide)).1⟩

end Uncaught.Text
