import Uncaught.Fix.Edits

/-!
What insertions do to a text when they are made one after another, from the last place to the first. A
later place is filled first, so an earlier one still is where it was; at one place every insertion goes
before those that were made there already.
-/

namespace Uncaught

namespace TextEdit

/-- The edit that puts a text at a place. -/
def insertion (place : UInt32) (text : String) : TextEdit := ⟨⟨place, place⟩, text⟩

theorem apply_insertion (place : UInt32) (text : String) (bytes : List UInt8) :
    (insertion place text).apply bytes =
      bytes.take place.toNat ++ text.toUTF8.toList ++ bytes.drop place.toNat := rfl

/-- The bytes of texts, the last text first. -/
def reversedBytes (texts : List String) : List UInt8 :=
  texts.reverse.flatMap fun text => text.toUTF8.toList

@[simp] theorem reversedBytes_nil : reversedBytes [] = [] := rfl

@[simp] theorem reversedBytes_cons (text : String) (texts : List String) :
    reversedBytes (text :: texts) = reversedBytes texts ++ text.toUTF8.toList := by
  simp [reversedBytes]

@[simp] theorem reversedBytes_append (texts others : List String) :
    reversedBytes (texts ++ others) = reversedBytes others ++ reversedBytes texts := by
  simp [reversedBytes]

/-- Texts that are put at one place end up in reverse. -/
theorem applyAll_map_insertion (front back : List UInt8) {place : UInt32}
    (hplace : front.length = place.toNat) (texts : List String) :
    applyAll (texts.map (insertion place)) (front ++ back) = front ++ reversedBytes texts ++ back := by
  induction texts generalizing back with
  | nil => simp
  | cons text texts ih =>
      have hfirst : (insertion place text).apply (front ++ back) =
          front ++ (text.toUTF8.toList ++ back) := by
        rw [apply_insertion, ← hplace, List.take_left, List.drop_left, List.append_assoc]
      calc applyAll ((text :: texts).map (insertion place)) (front ++ back)
          = applyAll (texts.map (insertion place)) ((insertion place text).apply (front ++ back)) := by
            simp
        _ = front ++ reversedBytes texts ++ (text.toUTF8.toList ++ back) := by rw [hfirst, ih]
        _ = front ++ reversedBytes (text :: texts) ++ back := by simp

end TextEdit

/-! ### Texts between bytes -/

/-- The bytes with a text put before each of them and one behind the last. The first byte stands at
`place`. -/
def weave (inserted : Nat → List UInt8) : Nat → List UInt8 → List UInt8
  | place, [] => inserted place
  | place, byte :: bytes => inserted place ++ byte :: weave inserted (place + 1) bytes

variable {inserted others : Nat → List UInt8}

theorem weave_congr {place : Nat} {bytes : List UInt8}
    (hsame : ∀ q, place ≤ q → q ≤ place + bytes.length → inserted q = others q) :
    weave inserted place bytes = weave others place bytes := by
  induction bytes generalizing place with
  | nil => exact hsame place (Nat.le_refl _) (Nat.le_refl _)
  | cons byte bytes ih =>
      rw [List.length_cons] at hsame
      rw [weave, weave, hsame place (Nat.le_refl _) (by omega),
        ih fun q hq hlast => hsame q (by omega) (by omega)]

/-- Bytes that nothing is put between. -/
theorem weave_append_left {front : List UInt8} {place : Nat}
    (hnone : ∀ q, place ≤ q → q < place + front.length → inserted q = []) (back : List UInt8) :
    weave inserted place (front ++ back) = front ++ weave inserted (place + front.length) back := by
  induction front generalizing place with
  | nil => rfl
  | cons byte front ih =>
      rw [List.length_cons] at hnone
      rw [List.cons_append, weave, hnone place (Nat.le_refl _) (by omega), List.nil_append,
        ih fun q hq hlast => hnone q (by omega) (by omega), List.cons_append, List.length_cons,
        Nat.add_assoc, Nat.add_comm 1]

/-- Up to the next place that something is put at, the bytes stay as they are. -/
theorem weave_drop {bytes : List UInt8} {place next : Nat} (hle : place ≤ next)
    (hnext : next ≤ bytes.length) (hnone : ∀ q, place ≤ q → q < next → inserted q = []) :
    weave inserted place (bytes.drop place) =
      (bytes.drop place).take (next - place) ++ weave inserted next (bytes.drop next) := by
  have hcut : (bytes.drop place).take (next - place) ++ bytes.drop next = bytes.drop place := by
    have hdrop : bytes.drop next = (bytes.drop place).drop (next - place) := by
      rw [List.drop_drop, Nat.add_sub_cancel' hle]
    rw [hdrop, List.take_append_drop]
  have hlength : place + ((bytes.drop place).take (next - place)).length = next := by
    rw [List.length_take, List.length_drop]
    omega
  calc weave inserted place (bytes.drop place)
      = weave inserted place ((bytes.drop place).take (next - place) ++ bytes.drop next) := by
        rw [hcut]
    _ = (bytes.drop place).take (next - place) ++ weave inserted next (bytes.drop next) := by
        rw [weave_append_left, hlength]
        rwa [hlength]

theorem weave_of_none {bytes : List UInt8} {place : Nat}
    (hnone : ∀ q, place ≤ q → q ≤ place + bytes.length → inserted q = []) :
    weave inserted place bytes = bytes := by
  have hbytes : weave inserted place (bytes ++ []) =
      bytes ++ weave inserted (place + bytes.length) [] :=
    weave_append_left (fun q hq hlast => hnone q hq (Nat.le_of_lt hlast)) []
  rwa [List.append_nil, weave, hnone _ (by omega) (Nat.le_refl _), List.append_nil] at hbytes

/-- Bytes that nothing is put behind. -/
theorem weave_append_right {place : Nat} (front : List UInt8) {back : List UInt8}
    (hnone : ∀ q, place + front.length < q → inserted q = []) :
    weave inserted place (front ++ back) = weave inserted place front ++ back := by
  induction front generalizing place with
  | nil =>
      rw [List.length_nil, Nat.add_zero] at hnone
      cases back with
      | nil => rw [List.append_nil, List.append_nil]
      | cons byte back =>
          have hback : weave inserted (place + 1) back = back :=
            weave_of_none fun q hq _ => hnone q hq
          rw [List.nil_append, weave, weave, hback]
  | cons byte front ih =>
      rw [List.length_cons] at hnone
      rw [List.cons_append, weave, weave, ih fun q hq => hnone q (by omega), List.append_assoc,
        List.cons_append]

/-- A text that comes first at the first place. -/
theorem weave_first {place : Nat} (text : List UInt8) (hfirst : inserted place = text ++ others place)
    (hsame : ∀ q, place < q → inserted q = others q) (bytes : List UInt8) :
    weave inserted place bytes = text ++ weave others place bytes := by
  cases bytes with
  | nil => exact hfirst
  | cons byte bytes =>
      rw [weave, weave, hfirst, weave_congr fun q hq _ => hsame q hq, List.append_assoc]

/-- One more text at the last place. -/
theorem weave_last {place : Nat} {bytes : List UInt8} (text : List UInt8)
    (hsame : ∀ q, q < place + bytes.length → inserted q = others q)
    (hlast : inserted (place + bytes.length) = others (place + bytes.length) ++ text) :
    weave inserted place bytes = weave others place bytes ++ text := by
  induction bytes generalizing place with
  | nil => exact hlast
  | cons byte bytes ih =>
      rw [List.length_cons, Nat.add_comm bytes.length 1, ← Nat.add_assoc] at hsame hlast
      rw [weave, weave, hsame place (by omega), ih hsame hlast, List.append_assoc, List.cons_append]

/-- Texts of the same lengths at the same places give the same bytes only if they are the same. -/
theorem weave_inj {place : Nat} {bytes : List UInt8}
    (hlength : ∀ q, (inserted q).length = (others q).length) :
    weave inserted place bytes = weave others place bytes ↔
      ∀ q, place ≤ q → q ≤ place + bytes.length → inserted q = others q := by
  refine ⟨fun heq => ?_, weave_congr⟩
  induction bytes generalizing place with
  | nil =>
      intro q hq hlast
      obtain rfl : place = q := by
        rw [List.length_nil] at hlast
        omega
      exact heq
  | cons byte bytes ih =>
      rw [weave, weave] at heq
      obtain ⟨hfirst, hrest⟩ := List.append_inj heq (hlength place)
      intro q hq hlast
      rw [List.length_cons] at hlast
      by_cases hplace : q = place
      · rw [hplace, hfirst]
      · exact ih (List.cons.inj hrest).2 q (by omega) (by omega)

namespace TextEdit

/-- What the edits put at a place: the text of the last one first. -/
def textAt (edits : List TextEdit) (place : Nat) : List UInt8 :=
  reversedBytes ((edits.filter (·.range.start.toNat = place)).map TextEdit.text)

/-- Insertions from the last place to the first put their texts between the bytes of the text. -/
theorem applyAll_eq_weave {edits : List TextEdit} {bytes : List UInt8}
    (hsorted : edits.Pairwise fun e f => f.range.start ≤ e.range.start)
    (hinsert : ∀ e ∈ edits, e.range.stop = e.range.start)
    (hin : ∀ e ∈ edits, e.range.start.toNat ≤ bytes.length) :
    applyAll edits bytes = weave (textAt edits) 0 bytes := by
  induction edits generalizing bytes with
  | nil => exact (weave_of_none fun _ _ _ => rfl).symm
  | cons e edits ih =>
      obtain ⟨hfirst, hsorted⟩ := List.pairwise_cons.mp hsorted
      obtain ⟨hinsertFirst, hinsert⟩ := List.forall_mem_cons.mp hinsert
      obtain ⟨hinFirst, hin⟩ := List.forall_mem_cons.mp hin
      have hfront : (bytes.take e.range.start.toNat).length = e.range.start.toNat :=
        List.length_take_of_le hinFirst
      -- the edits that follow put nothing behind the place of this one
      have hbehind : ∀ q, 0 + (bytes.take e.range.start.toNat).length < q → textAt edits q = [] := by
        intro q hq
        have hnone : edits.filter (·.range.start.toNat = q) = [] := by
          apply List.filter_eq_nil_iff.mpr
          intro f hf
          have hle := UInt32.le_iff_toNat_le.mp (hfirst f hf)
          simp only [decide_eq_true_eq]
          omega
        rw [textAt, hnone]
        rfl
      have hother : ∀ q, q ≠ e.range.start.toNat → textAt (e :: edits) q = textAt edits q := by
        intro q hq
        simp [textAt, hq.symm]
      have hhere : textAt (e :: edits) e.range.start.toNat =
          textAt edits e.range.start.toNat ++ e.text.toUTF8.toList := by
        simp [textAt]
      have happly : e.apply bytes = bytes.take e.range.start.toNat ++
          (e.text.toUTF8.toList ++ bytes.drop e.range.start.toNat) := by
        rw [apply, hinsertFirst, List.append_assoc]
      calc applyAll (e :: edits) bytes
          = applyAll edits (e.apply bytes) := by simp
        _ = weave (textAt edits) 0 (e.apply bytes) := by
            apply ih hsorted hinsert
            intro f hf
            have hle := UInt32.le_iff_toNat_le.mp (hfirst f hf)
            rw [happly, List.length_append]
            omega
        _ = weave (textAt edits) 0 (bytes.take e.range.start.toNat) ++
              (e.text.toUTF8.toList ++ bytes.drop e.range.start.toNat) := by
            rw [happly, weave_append_right _ hbehind]
        _ = weave (textAt (e :: edits)) 0 (bytes.take e.range.start.toNat) ++
              bytes.drop e.range.start.toNat := by
            rw [weave_last e.text.toUTF8.toList fun q hq => hother q (by omega), List.append_assoc]
            rw [hfront, Nat.zero_add, hhere]
        _ = weave (textAt (e :: edits)) 0 bytes := by
            rw [← weave_append_right, List.take_append_drop]
            intro q hq
            rw [hother q (by omega), hbehind q hq]

end TextEdit

end Uncaught
