import Stencil.Text.Utf8

/-! The strict decoder of UTF-8 reads exactly what the encoder writes.

`Spelled` states the bytes of one character by their ranges and the number they stand for; the
reader and the writer of a character are both held against it.  Bytes that stand before a break
of one byte are decoded as they are alone, and what follows the break as it is alone. -/

namespace Stencil
namespace Utf8

/-! ### Ranges of bytes -/

theorem isTail_iff {byte : UInt8} :
    isTail byte = true ↔ 0x80 ≤ byte.toNat ∧ byte.toNat ≤ 0xBF := by
  simp [isTail]

theorem narrowed_iff {first second low high : UInt8} {least most : Nat} (apart : low ≠ high)
    (above : 0x80 ≤ least) (below : most ≤ 0xBF) :
    (if first = low then decide (least ≤ second.toNat) && decide (second.toNat ≤ 0xBF)
      else if first = high then decide (0x80 ≤ second.toNat) && decide (second.toNat ≤ most)
      else isTail second) = true ↔
      (0x80 ≤ second.toNat ∧ second.toNat ≤ 0xBF) ∧
        (first.toNat = low.toNat → least ≤ second.toNat) ∧
        (first.toNat = high.toNat → second.toNat ≤ most) := by
  rw [UInt8.toNat_inj, UInt8.toNat_inj]
  split
  · rename_i lowest
    subst lowest
    simp [apart]
    omega
  split
  · rename_i highest
    subst highest
    simp [Ne.symm apart]
    omega
  · rename_i notLow notHigh
    simp [isTail_iff, notLow, notHigh]

theorem secondOfThree_iff {first second : UInt8} :
    secondOfThree first second = true ↔
      (0x80 ≤ second.toNat ∧ second.toNat ≤ 0xBF) ∧
        (first.toNat = 0xE0 → 0xA0 ≤ second.toNat) ∧ (first.toNat = 0xED → second.toNat ≤ 0x9F) :=
  narrowed_iff (by decide) (by decide) (by decide)

theorem secondOfFour_iff {first second : UInt8} :
    secondOfFour first second = true ↔
      (0x80 ≤ second.toNat ∧ second.toNat ≤ 0xBF) ∧
        (first.toNat = 0xF0 → 0x90 ≤ second.toNat) ∧ (first.toNat = 0xF4 → second.toNat ≤ 0x8F) :=
  narrowed_iff (by decide) (by decide) (by decide)

/-! ### The bytes of a character -/

/-- A first byte and those that follow it spell a character. -/
inductive Spelled (character : Char) : UInt8 → Bytes → Prop
  | one {first : UInt8} (small : first.toNat < 0x80) (code : character.toNat = first.toNat) :
      Spelled character first []
  | two {first second : UInt8} (least : 0xC2 ≤ first.toNat) (most : first.toNat < 0xE0)
      (last : isTail second = true)
      (code : character.toNat = (first.toNat - 0xC0) * 0x40 + (second.toNat - 0x80)) :
      Spelled character first [second]
  | three {first second third : UInt8} (least : 0xE0 ≤ first.toNat) (most : first.toNat < 0xF0)
      (middle : secondOfThree first second = true) (last : isTail third = true)
      (code : character.toNat =
        ((first.toNat - 0xE0) * 0x40 + (second.toNat - 0x80)) * 0x40 + (third.toNat - 0x80)) :
      Spelled character first [second, third]
  | four {first second third fourth : UInt8} (least : 0xF0 ≤ first.toNat)
      (most : first.toNat < 0xF5) (middle : secondOfFour first second = true)
      (further : isTail third = true) (last : isTail fourth = true)
      (code : character.toNat =
        (((first.toNat - 0xF0) * 0x40 + (second.toNat - 0x80)) * 0x40 + (third.toNat - 0x80)) *
          0x40 + (fourth.toNat - 0x80)) :
      Spelled character first [second, third, fourth]

theorem toNat_ofNat {code : Nat} (valid : code < 0xD800 ∨ 0xDFFF < code ∧ code < 0x110000) :
    (Char.ofNat code).toNat = code := by
  have isChar : code.isValidChar := valid
  rw [Char.ofNat, dif_pos isChar]
  rfl

theorem ofNat_of_toNat {character : Char} {code : Nat} (same : character.toNat = code) :
    Char.ofNat code = character := by
  rw [← same, Char.ofNat_toNat]

theorem spelled_of_readChar {first : UInt8} {rest : Bytes} {character : Char} {taken : Nat}
    (read : readChar first rest = some (character, taken)) :
    ∃ tail more, rest = tail ++ more ∧ taken = tail.length ∧ Spelled character first tail := by
  unfold readChar at read
  split at read
  · rename_i small
    simp only [Option.some.injEq, Prod.mk.injEq] at read
    obtain ⟨rfl, rfl⟩ := read
    exact ⟨[], rest, rfl, rfl, .one small (toNat_ofNat (by omega))⟩
  split at read
  · contradiction
  split at read
  · split at read
    · rename_i second more
      split at read
      · rename_i last
        simp only [Option.some.injEq, Prod.mk.injEq] at read
        obtain ⟨rfl, rfl⟩ := read
        have bounds := isTail_iff.mp last
        exact ⟨[second], more, rfl, rfl, .two (by omega) (by omega) last (toNat_ofNat (by omega))⟩
      · contradiction
    · contradiction
  split at read
  · split at read
    · rename_i second third more
      split at read
      · rename_i both
        simp only [Option.some.injEq, Prod.mk.injEq] at read
        obtain ⟨rfl, rfl⟩ := read
        obtain ⟨middle, last⟩ := Bool.and_eq_true_iff.mp both
        have bounds := isTail_iff.mp last
        have ranges := secondOfThree_iff.mp middle
        exact ⟨[second, third], more, rfl, rfl,
          .three (by omega) (by omega) middle last (toNat_ofNat (by omega))⟩
      · contradiction
    · contradiction
  split at read
  · split at read
    · rename_i second third fourth more
      split at read
      · rename_i all
        simp only [Option.some.injEq, Prod.mk.injEq] at read
        obtain ⟨rfl, rfl⟩ := read
        obtain ⟨both, last⟩ := Bool.and_eq_true_iff.mp all
        obtain ⟨middle, further⟩ := Bool.and_eq_true_iff.mp both
        have bounds := isTail_iff.mp last
        have inner := isTail_iff.mp further
        have ranges := secondOfFour_iff.mp middle
        exact ⟨[second, third, fourth], more, rfl, rfl,
          .four (by omega) (by omega) middle further last (toNat_ofNat (by omega))⟩
      · contradiction
    · contradiction
  · contradiction

theorem Spelled.readChar {character : Char} {first : UInt8} {tail : Bytes}
    (spelled : Spelled character first tail) (more : Bytes) :
    readChar first (tail ++ more) = some (character, tail.length) := by
  unfold Utf8.readChar
  cases spelled with
  | one small code =>
      rw [if_pos small, ofNat_of_toNat code]
      rfl
  | two least most last code =>
      rw [if_neg (by omega), if_neg (by omega), if_pos most]
      exact (if_pos last).trans (by rw [pair, ofNat_of_toNat code]; rfl)
  | three least most middle last code =>
      rw [if_neg (by omega), if_neg (by omega), if_neg (by omega), if_pos most]
      exact (if_pos (Bool.and_eq_true_iff.mpr ⟨middle, last⟩)).trans
        (by rw [triple, ofNat_of_toNat code]; rfl)
  | four least most middle further last code =>
      rw [if_neg (by omega), if_neg (by omega), if_neg (by omega), if_neg (by omega), if_pos most]
      have tails := Bool.and_eq_true_iff.mpr ⟨Bool.and_eq_true_iff.mpr ⟨middle, further⟩, last⟩
      exact (if_pos tails).trans (by rw [quadruple, ofNat_of_toNat code]; rfl)

theorem toNat_byte {code : Nat} (small : code < 0x100) : (UInt8.ofNat code).toNat = code := by
  rw [UInt8.toNat_ofNat']
  omega

theorem Spelled.encodeChar {character : Char} {first : UInt8} {tail : Bytes}
    (spelled : Spelled character first tail) : encodeChar character = first :: tail := by
  have byte {code : Nat} {byte : UInt8} {rest others : Bytes} (same : byte.toNat = code)
      (later : rest = others) : UInt8.ofNat code :: rest = byte :: others := by
    rw [← same, UInt8.ofNat_toNat, later]
  unfold Utf8.encodeChar
  simp only
  cases spelled with
  | one small code =>
      rw [if_pos (by omega)]
      exact byte code.symm rfl
  | two least most last code =>
      rw [isTail_iff] at last
      rw [if_neg (by omega), if_pos (by omega)]
      exact byte (by omega) (byte (by omega) rfl)
  | three least most middle last code =>
      rw [isTail_iff] at last
      rw [secondOfThree_iff] at middle
      rw [if_neg (by omega), if_neg (by omega), if_pos (by omega)]
      exact byte (by omega) (byte (by omega) (byte (by omega) rfl))
  | four least most middle further last code =>
      rw [isTail_iff] at last further
      rw [secondOfFour_iff] at middle
      rw [if_neg (by omega), if_neg (by omega), if_neg (by omega)]
      exact byte (by omega) (byte (by omega) (byte (by omega) (byte (by omega) rfl)))

theorem spelled_encodeChar (character : Char) :
    ∃ first tail, encodeChar character = first :: tail ∧ Spelled character first tail := by
  have valid : character.toNat < 0xD800 ∨ 0xDFFF < character.toNat ∧ character.toNat < 0x110000 :=
    character.valid
  unfold encodeChar
  simp only
  split
  · refine ⟨_, _, rfl, ?_⟩
    have first := @toNat_byte character.toNat (by omega)
    exact .one (by omega) (by omega)
  split
  · have first := @toNat_byte (0xC0 + character.toNat / 0x40) (by omega)
    have second := @toNat_byte (0x80 + character.toNat % 0x40) (by omega)
    exact ⟨_, _, rfl, .two (by omega) (by omega) (isTail_iff.mpr (by omega)) (by omega)⟩
  split
  · have first := @toNat_byte (0xE0 + character.toNat / 0x1000) (by omega)
    have second := @toNat_byte (0x80 + character.toNat / 0x40 % 0x40) (by omega)
    have third := @toNat_byte (0x80 + character.toNat % 0x40) (by omega)
    exact ⟨_, _, rfl, .three (by omega) (by omega) (secondOfThree_iff.mpr (by omega))
      (isTail_iff.mpr (by omega)) (by omega)⟩
  · have first := @toNat_byte (0xF0 + character.toNat / 0x40000) (by omega)
    have second := @toNat_byte (0x80 + character.toNat / 0x1000 % 0x40) (by omega)
    have third := @toNat_byte (0x80 + character.toNat / 0x40 % 0x40) (by omega)
    have fourth := @toNat_byte (0x80 + character.toNat % 0x40) (by omega)
    exact ⟨_, _, rfl, .four (by omega) (by omega) (secondOfFour_iff.mpr (by omega))
      (isTail_iff.mpr (by omega)) (isTail_iff.mpr (by omega)) (by omega)⟩

theorem Spelled.isTail_of_mem {character : Char} {first byte : UInt8} {tail : Bytes}
    (spelled : Spelled character first tail) (member : byte ∈ tail) : isTail byte = true := by
  cases spelled with
  | one small code => contradiction
  | two least most last code =>
      rw [List.mem_singleton] at member
      rwa [member]
  | three least most middle last code =>
      simp only [List.mem_cons, List.not_mem_nil, or_false] at member
      rcases member with rfl | rfl
      · exact isTail_iff.mpr (secondOfThree_iff.mp middle).1
      · exact last
  | four least most middle further last code =>
      simp only [List.mem_cons, List.not_mem_nil, or_false] at member
      rcases member with rfl | rfl | rfl
      · exact isTail_iff.mpr (secondOfFour_iff.mp middle).1
      · exact further
      · exact last

/-! ### Texts -/

theorem decode_spelled {character : Char} {first : UInt8} {tail : Bytes}
    (spelled : Spelled character first tail) (more : Bytes) :
    decode (first :: (tail ++ more)) =
      match decode more with
      | .ok text => .ok (character :: text)
      | .error offset => .error (offset + tail.length + 1) := by
  rw [decode, spelled.readChar more]
  cases later : decode more with
  | ok text => simp only [List.drop_left, later]
  | error offset => simp only [List.drop_left, later]

theorem decode_encode_append (text : Text) (more : Bytes) :
    decode (encode text ++ more) =
      match decode more with
      | .ok rest => .ok (text ++ rest)
      | .error offset => .error ((encode text).length + offset) := by
  induction text with
  | nil =>
      cases decoded : decode more with
      | ok rest => simp [encode, decoded]
      | error offset => simp [encode, decoded]
  | cons character others ih =>
      obtain ⟨first, tail, bytes, spelled⟩ := spelled_encodeChar character
      have split : encode (character :: others) = first :: (tail ++ encode others) := by
        rw [encode, List.flatMap_cons, bytes]
        rfl
      rw [split, List.cons_append, List.append_assoc, decode_spelled spelled, ih]
      cases decode more with
      | ok rest => rfl
      | error offset =>
          simp only [List.length_cons, List.length_append, Except.error.injEq]
          omega

theorem decode_encode (text : Text) : decode (encode text) = .ok text := by
  have whole := decode_encode_append text []
  simpa [decode] using whole

/-- What can be decoded is the encoding of the result. -/
theorem encode_of_decode {bytes : Bytes} {text : Text} (decoded : decode bytes = .ok text) :
    encode text = bytes := by
  fun_induction decode bytes generalizing text with
  | case1 =>
      cases decoded
      rfl
  | case2 first rest unread => contradiction
  | case3 first rest character taken read more later ih =>
      cases decoded
      obtain ⟨tail, unread, rfl, rfl, spelled⟩ := spelled_of_readChar read
      rw [List.drop_left] at ih later
      rw [encode, List.flatMap_cons, spelled.encodeChar, ← encode, ih later]
      rfl
  | case4 first rest character taken read offset later ih => contradiction

theorem decode_eq_ok_iff {bytes : Bytes} {text : Text} :
    decode bytes = .ok text ↔ encode text = bytes := by
  constructor
  · exact encode_of_decode
  · rintro rfl
    exact decode_encode text

theorem decode_error_lt {bytes : Bytes} {offset : Nat} (failed : decode bytes = .error offset) :
    offset < bytes.length := by
  fun_induction decode bytes generalizing offset with
  | case1 => contradiction
  | case2 first rest unread =>
      cases failed
      exact Nat.succ_pos _
  | case3 first rest character taken read more later ih => contradiction
  | case4 first rest character taken read inner later ih =>
      cases failed
      have bound := ih later
      rw [List.length_drop] at bound
      rw [List.length_cons]
      omega

/-! ### Breaks of one byte -/

theorem readChar_break {brk : UInt8} (ascii : brk.toNat < 0x80) (first : UInt8)
    (rest more : Bytes) : readChar first (rest ++ brk :: more) = readChar first rest := by
  have noTail : isTail brk ≠ true := by
    rw [ne_eq, isTail_iff]
    omega
  cases read : readChar first rest with
  | some found =>
      obtain ⟨character, taken⟩ := found
      obtain ⟨tail, unread, rfl, rfl, spelled⟩ := spelled_of_readChar read
      rw [List.append_assoc]
      exact spelled.readChar _
  | none =>
      cases longer : readChar first (rest ++ brk :: more) with
      | none => rfl
      | some found =>
          obtain ⟨character, taken⟩ := found
          obtain ⟨tail, unread, same, rfl, spelled⟩ := spelled_of_readChar longer
          -- the break is no tail, so the character ends before it
          rcases List.append_eq_append_iff.mp same with ⟨beyond, whole, ending⟩ | ⟨beyond, whole, -⟩
          · cases beyond with
            | nil =>
                rw [List.append_nil] at whole
                have again := spelled.readChar []
                rw [List.append_nil, whole, read] at again
                contradiction
            | cons next others =>
                obtain rfl : brk = next := List.head_eq_of_cons_eq ending
                exact absurd (spelled.isTail_of_mem (by simp [whole])) noTail
          · rw [whole, spelled.readChar] at read
            contradiction

/-- Bytes that cannot be decoded fail alike before a break. -/
theorem decode_break_of_error {line : Bytes} {brk : UInt8} {offset : Nat}
    (ascii : brk.toNat < 0x80) (failed : decode line = .error offset) (rest : Bytes) :
    decode (line ++ brk :: rest) = .error offset := by
  fun_induction decode line generalizing offset with
  | case1 => contradiction
  | case2 first others unread =>
      cases failed
      rw [List.cons_append, decode, readChar_break ascii, unread]
  | case3 first others character taken read more later ih => contradiction
  | case4 first others character taken read inner later ih =>
      cases failed
      obtain ⟨tail, unread, rfl, rfl, spelled⟩ := spelled_of_readChar read
      rw [List.drop_left] at ih later
      rw [List.cons_append, List.append_assoc, decode_spelled spelled, ih later]

theorem decode_break_of_ok {line : Bytes} {brk : UInt8} {text : Text}
    (ascii : brk.toNat < 0x80) (decoded : decode line = .ok text) (rest : Bytes) :
    decode (line ++ brk :: rest) =
      match decode rest with
      | .ok more => .ok (text ++ Char.ofNat brk.toNat :: more)
      | .error offset => .error (line.length + 1 + offset) := by
  have single : Spelled (Char.ofNat brk.toNat) brk [] := .one ascii (toNat_ofNat (by omega))
  have last := decode_spelled single rest
  rw [List.nil_append] at last
  rw [← encode_of_decode decoded, decode_encode_append, last]
  cases decode rest with
  | ok more => rfl
  | error offset =>
      simp only [List.length_nil, Except.error.injEq]
      omega

end Utf8
end Stencil
