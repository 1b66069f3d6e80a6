import Mathlib.Data.List.TakeWhile
import Stencil.Proofs.Decoding
import Stencil.Proofs.Loading

/-! A source over the bytes of a text is the source over the text.

The text is unified before its first line is looked at, and the bytes are cut at their first
newline before anything else.  A pragma does not depend on the break that its line ends with, so
both see the same one as long as no other return stands in the first line. -/

namespace Stencil

/-! ### Pragmas before a break -/

namespace Encoding

/-- A character that no part of a pragma goes over. -/
structure Breaks (character : Char) : Prop where
  noSlash : character ∉ "//".toList
  noMark : character ∉ "-#".toList
  noWord : character ∉ "coding".toList
  noSeparator : ¬(character = ':' ∨ character = '=')
  noGap : isGap character = false
  noLabel : isLabelCharacter character = false

theorem breaks_newline : Breaks '\n' :=
  ⟨by decide, by decide, by decide, by decide, by decide, by decide +kernel⟩

theorem breaks_return : Breaks '\r' :=
  ⟨by decide, by decide, by decide, by decide, by decide, by decide +kernel⟩

theorem afterLead_break {lead : Text} {brk : Char} (text rest : Text) (outside : brk ∉ lead) :
    Text.afterLead lead (text ++ brk :: rest) =
      (Text.afterLead lead text).map (· ++ brk :: rest) := by
  induction lead generalizing text with
  | nil => rfl
  | cons expected lead ih =>
      simp only [List.mem_cons, not_or] at outside
      cases text with
      | nil => simp [Text.afterLead, Ne.symm outside.1]
      | cons character others =>
          by_cases same : expected = character
          · simp [Text.afterLead, same, ih others outside.2]
          · simp [Text.afterLead, same]

theorem dropGaps_break {brk : Char} (breaks : Breaks brk) (text rest : Text) :
    (text ++ brk :: rest).dropWhile isGap = text.dropWhile isGap ++ brk :: rest := by
  have stays : (brk :: rest).dropWhile isGap = brk :: rest := by
    rw [List.dropWhile_cons_of_neg]
    simp [breaks.noGap]
  rw [List.dropWhile_append, stays]
  split
  · rename_i nothing
    rw [List.isEmpty_iff.mp nothing, List.nil_append]
  · rfl

theorem takeLabel_break {brk : Char} (breaks : Breaks brk) (text rest : Text) :
    (text ++ brk :: rest).takeWhile isLabelCharacter = text.takeWhile isLabelCharacter := by
  have nothing : (brk :: rest).takeWhile isLabelCharacter = [] := by
    rw [List.takeWhile_cons_of_neg]
    simp [breaks.noLabel]
  rw [List.takeWhile_append, nothing, List.append_nil]
  split
  · rename_i whole
    exact ((List.takeWhile_prefix _).eq_of_length whole).symm
  · rfl

theorem labelAt_break {brk : Char} (breaks : Breaks brk) (text rest : Text) :
    labelAt (text ++ brk :: rest) = labelAt text := by
  unfold labelAt
  rw [afterLead_break text rest breaks.noWord]
  cases Text.afterLead "coding".toList text with
  | none => rfl
  | some after =>
      cases after with
      | nil => exact if_neg breaks.noSeparator
      | cons separator others =>
          simp only [Option.map_some, List.cons_append]
          rw [dropGaps_break breaks, takeLabel_break breaks]

theorem findLabel_newline {text : Text} (rest : Text) (unbroken : '\n' ∉ text) :
    findLabel (text ++ '\n' :: rest) = findLabel text := by
  induction text with
  | nil =>
      have nothing := labelAt_break breaks_newline [] rest
      rw [List.nil_append] at nothing ⊢
      unfold findLabel
      rw [nothing]
      rfl
  | cons character others ih =>
      simp only [List.mem_cons, not_or] at unbroken
      have same := labelAt_break breaks_newline (character :: others) rest
      rw [List.cons_append] at same ⊢
      rw [findLabel, findLabel, same, ih unbroken.2]

theorem findLabel_return {text : Text} (rest : Text) (unbroken : '\n' ∉ text) :
    findLabel (text ++ '\r' :: rest) = (findLabel text).or (findLabel rest) := by
  induction text with
  | nil =>
      have nothing := labelAt_break breaks_return [] rest
      rw [List.nil_append] at nothing
      have onward : findLabel ('\r' :: rest) = findLabel rest := by
        rw [findLabel, nothing]
        rfl
      exact onward
  | cons character others ih =>
      simp only [List.mem_cons, not_or] at unbroken
      have same := labelAt_break breaks_return (character :: others) rest
      rw [List.cons_append] at same ⊢
      rw [findLabel, findLabel, same, ih unbroken.2]
      cases labelAt (character :: others) with
      | some label => rfl
      | none => simp only [if_neg (Ne.symm unbroken.1)]

def remark (line : Text) : Option Text :=
  (Text.afterLead "//".toList (line.dropWhile isGap)).or
    (Text.afterLead "-#".toList (line.dropWhile isGap))

theorem pragma_eq (line : Text) : pragma line = (remark line).bind findLabel := by
  unfold pragma remark
  simp only
  cases Text.afterLead "//".toList (line.dropWhile isGap) with
  | some rest => rfl
  | none => cases Text.afterLead "-#".toList (line.dropWhile isGap) <;> rfl

theorem remark_break {brk : Char} (breaks : Breaks brk) (line rest : Text) :
    remark (line ++ brk :: rest) = (remark line).map (· ++ brk :: rest) := by
  unfold remark
  rw [dropGaps_break breaks, afterLead_break _ _ breaks.noSlash, afterLead_break _ _ breaks.noMark]
  cases Text.afterLead "//".toList (line.dropWhile isGap) <;> rfl

theorem mem_of_remark {line body : Text} {character : Char} (found : remark line = some body)
    (member : character ∈ body) : character ∈ line := by
  have inside {lead : Text} (after : Text.afterLead lead (line.dropWhile isGap) = some body) :
      character ∈ line := by
    have split := Text.afterLead_eq_some_iff.mp after
    apply (List.dropWhile_sublist isGap).subset
    simp [split, member]
  rcases Option.or_eq_some_iff.mp found with after | ⟨-, after⟩
  · exact inside after
  · exact inside after

theorem pragma_newline {line : Text} (rest : Text) (unbroken : '\n' ∉ line) :
    pragma (line ++ '\n' :: rest) = pragma line := by
  rw [pragma_eq, pragma_eq, remark_break breaks_newline]
  cases found : remark line with
  | none => rfl
  | some body => exact findLabel_newline rest fun member => unbroken (mem_of_remark found member)

theorem pragma_return {line : Text} (rest : Text) (unbroken : '\n' ∉ line) :
    pragma (line ++ '\r' :: rest) =
      (pragma line).or ((remark line).bind fun _ => findLabel rest) := by
  rw [pragma_eq, pragma_eq, remark_break breaks_return]
  cases found : remark line with
  | none => rfl
  | some body => exact findLabel_return rest fun member => unbroken (mem_of_remark found member)

theorem pragma_lastReturn {line : Text} (unbroken : '\n' ∉ line) :
    pragma (line ++ ['\r']) = pragma line := by
  rw [pragma_return [] unbroken]
  cases remark line <;> simp [findLabel]

end Encoding

/-! ### The bytes of a text -/

namespace Utf8

theorem encode_append (first second : Text) :
    encode (first ++ second) = encode first ++ encode second :=
  List.flatMap_append

theorem encodeChar_ascii {character : Char} (ascii : character.toNat < 0x80) :
    encodeChar character = [UInt8.ofNat character.toNat] :=
  if_pos ascii

/-- A byte below 0x80 stands for itself only. -/
theorem mem_encode_iff {byte : UInt8} {text : Text} (ascii : byte.toNat < 0x80) :
    byte ∈ encode text ↔ Char.ofNat byte.toNat ∈ text := by
  constructor
  · intro member
    obtain ⟨character, given, among⟩ := List.mem_flatMap.mp member
    obtain ⟨first, tail, bytes, spelled⟩ := spelled_encodeChar character
    rw [bytes] at among
    rcases List.mem_cons.mp among with rfl | later
    · cases spelled with
      | one small code => rwa [ofNat_of_toNat code]
      | two least most last code => omega
      | three least most middle last code => omega
      | four least most middle further last code => omega
    · have tailed := isTail_iff.mp (spelled.isTail_of_mem later)
      omega
  · intro given
    have code : (Char.ofNat byte.toNat).toNat = byte.toNat := toNat_ofNat (by omega)
    refine List.mem_flatMap.mpr ⟨_, given, ?_⟩
    rw [encodeChar_ascii (by omega), code, UInt8.ofNat_toNat]
    exact List.mem_singleton_self byte

theorem encode_of_ascii {text : Text} (ascii : ∀ character ∈ text, character.toNat < 0x80) :
    ∀ byte ∈ encode text, byte.toNat < 0x80 := by
  intro byte member
  obtain ⟨character, given, among⟩ := List.mem_flatMap.mp member
  have small := ascii character given
  rw [encodeChar_ascii small, List.mem_singleton] at among
  rw [among, toNat_byte (by omega)]
  exact small

end Utf8

namespace Encoding

def read (encoding : Encoding) (bytes : Utf8.Bytes) : Except Nat Text :=
  if encoding = .ascii ∧ (bytes.takeWhile (·.toNat < 0x80)).length < bytes.length then
    .error (bytes.takeWhile (·.toNat < 0x80)).length
  else Utf8.decode bytes

theorem decode_eq (encoding : Encoding) (first : Nat) (bytes : Utf8.Bytes) :
    encoding.decode first bytes = (encoding.read bytes).mapError (undecodable first bytes) := by
  unfold Encoding.decode read
  simp only
  split
  · rfl
  · cases Utf8.decode bytes <;> rfl

theorem read_of_ascii {encoding : Encoding} {bytes : Utf8.Bytes}
    (ascii : encoding = .ascii → ∀ byte ∈ bytes, byte.toNat < 0x80) :
    encoding.read bytes = Utf8.decode bytes := by
  rw [read, if_neg]
  rintro ⟨named, shorter⟩
  have whole : bytes.takeWhile (·.toNat < 0x80) = bytes := by
    rw [List.takeWhile_eq_self_iff]
    intro byte member
    exact decide_eq_true (ascii named byte member)
  rw [whole] at shorter
  omega

theorem read_utf8 (bytes : Utf8.Bytes) : utf8.read bytes = Utf8.decode bytes :=
  read_of_ascii (by simp)

theorem decode_encode {text : Text} (encoding : Encoding) (first : Nat)
    (ascii : encoding = .ascii → ∀ character ∈ text, character.toNat < 0x80) :
    encoding.decode first (Utf8.encode text) = .ok text := by
  rw [decode_eq, read_of_ascii fun named => Utf8.encode_of_ascii (ascii named),
    Utf8.decode_encode]
  rfl

end Encoding

/-! ### The first line -/

namespace Text

def firstLine (text : Text) : Text :=
  text.takeWhile (· ≠ '\n')

theorem firstLine_unbroken {line : Text} (unbroken : '\n' ∉ line) : firstLine line = line := by
  rw [firstLine, List.takeWhile_eq_self_iff]
  intro character member
  apply decide_eq_true
  rintro rfl
  exact unbroken member

theorem firstLine_newline {line : Text} (rest : Text) (unbroken : '\n' ∉ line) :
    firstLine (line ++ '\n' :: rest) = line := by
  have whole := firstLine_unbroken unbroken
  rw [firstLine] at whole ⊢
  rw [List.takeWhile_append, whole, if_pos rfl, List.takeWhile_cons_of_neg (by simp),
    List.append_nil]

theorem headD_lines (text : Text) : text.lines.headD [] = text.firstLine := by
  induction text using line_induction with
  | unbroken line free =>
      rw [firstLine_unbroken free]
      by_cases given : line = []
      · subst given
        rfl
      · rw [lines_unbroken free given]
        rfl
  | broken line rest free ih =>
      rw [firstLine_newline rest free, lines_newline rest free]
      rfl

/-- The only return of a line is at its end. -/
theorem line_cases {line : Text} (returns : '\r' ∉ line.dropLast) :
    ∃ first, '\r' ∉ first ∧ (line = first ∨ line = first ++ ['\r']) := by
  rcases List.eq_nil_or_concat line with rfl | ⟨first, last, rfl⟩
  · exact ⟨[], List.not_mem_nil, .inl rfl⟩
  · rw [List.concat_eq_append, List.dropLast_concat] at returns
    rw [List.concat_eq_append]
    by_cases isReturn : last = '\r'
    · exact ⟨first, returns, .inr (by rw [isReturn])⟩
    · exact ⟨first ++ [last], by simp [returns, Ne.symm isReturn], .inl rfl⟩

/-- Unifying breaks changes neither the pragma nor where the first line ends, if no other return
stands in that line. -/
theorem firstLine_unifyBreaks {text : Text} (returns : '\r' ∉ text.firstLine.dropLast) :
    Encoding.pragma text.unifyBreaks.firstLine = Encoding.pragma text.firstLine ∧
      text.unifyBreaks.afterFirstLine = text.afterFirstLine.unifyBreaks := by
  induction text using line_induction with
  | unbroken line free =>
      rw [firstLine_unbroken free] at returns ⊢
      rw [afterFirstLine_unbroken free]
      obtain ⟨first, clean, rfl | rfl⟩ := line_cases returns
      · rw [unifyBreaks_of_not_mem clean, firstLine_unbroken free, afterFirstLine_unbroken free]
        exact ⟨rfl, rfl⟩
      · have unbroken : '\n' ∉ first := fun member => free (by simp [member])
        have unified : unifyBreaks (first ++ ['\r']) = first ++ '\n' :: [] :=
          unifyBreaks_append ['\r'] clean
        rw [unified, firstLine_newline [] unbroken, afterFirstLine_newline [] unbroken]
        exact ⟨(Encoding.pragma_lastReturn unbroken).symm, rfl⟩
  | broken line rest free ih =>
      rw [firstLine_newline rest free] at returns ⊢
      rw [afterFirstLine_newline rest free]
      obtain ⟨first, clean, rfl | rfl⟩ := line_cases returns
      · have unified : unifyBreaks (line ++ '\n' :: rest) = line ++ '\n' :: unifyBreaks rest :=
          unifyBreaks_append ('\n' :: rest) clean
        rw [unified, firstLine_newline _ free, afterFirstLine_newline _ free]
        exact ⟨rfl, rfl⟩
      · have unbroken : '\n' ∉ first := fun member => free (by simp [member])
        have unified : unifyBreaks (first ++ ['\r'] ++ '\n' :: rest) =
            first ++ '\n' :: unifyBreaks rest := by
          rw [List.append_assoc]
          exact unifyBreaks_append ('\r' :: '\n' :: rest) clean
        rw [unified, firstLine_newline _ unbroken, afterFirstLine_newline _ unbroken]
        exact ⟨(Encoding.pragma_lastReturn unbroken).symm, rfl⟩

end Text

namespace Source

theorem splitFirstLine_unbroken {bytes : Utf8.Bytes} (unbroken : 0x0A ∉ bytes) :
    splitFirstLine bytes = (bytes, []) := by
  induction bytes with
  | nil => rfl
  | cons byte rest ih =>
      simp only [List.mem_cons, not_or] at unbroken
      rw [splitFirstLine, if_neg (Ne.symm unbroken.1), ih unbroken.2]

theorem splitFirstLine_newline {line : Utf8.Bytes} (rest : Utf8.Bytes) (unbroken : 0x0A ∉ line) :
    splitFirstLine (line ++ 0x0A :: rest) = (line ++ [0x0A], rest) := by
  induction line with
  | nil => rfl
  | cons byte others ih =>
      simp only [List.mem_cons, not_or] at unbroken
      rw [List.cons_append, splitFirstLine, if_neg (Ne.symm unbroken.1), ih unbroken.2]
      rfl

/-- The first newline byte of a text's bytes is that of its first newline. -/
theorem splitFirstLine_encode (text : Text) :
    pragmaOfBytes (splitFirstLine (Utf8.encode text)).1 = Encoding.pragma text.firstLine ∧
      (splitFirstLine (Utf8.encode text)).2 = Utf8.encode text.afterFirstLine := by
  have newline {line : Text} (free : '\n' ∉ line) : 0x0A ∉ Utf8.encode line := by
    rwa [Utf8.mem_encode_iff (by decide)]
  induction text using Text.line_induction with
  | unbroken line free =>
      rw [splitFirstLine_unbroken (newline free), Text.firstLine_unbroken free,
        Text.afterFirstLine_unbroken free]
      exact ⟨by rw [pragmaOfBytes, Utf8.decode_encode], rfl⟩
  | broken line rest free ih =>
      have bytes : Utf8.encode (line ++ '\n' :: rest) =
          Utf8.encode line ++ 0x0A :: Utf8.encode rest :=
        Utf8.encode_append line ('\n' :: rest)
      have ended : Utf8.encode line ++ [0x0A] = Utf8.encode (line ++ ['\n']) :=
        (Utf8.encode_append line ['\n']).symm
      rw [bytes, splitFirstLine_newline _ (newline free), Text.firstLine_newline rest free,
        Text.afterFirstLine_newline rest free]
      refine ⟨?_, rfl⟩
      rw [ended, pragmaOfBytes, Utf8.decode_encode]
      exact Encoding.pragma_newline [] free

theorem decodeLines_encode {text : Text} (encoding : Encoding) (first : Nat)
    (ascii : encoding = .ascii → ∀ character ∈ text, character.toNat < 0x80) :
    decodeLines encoding first (Utf8.encode text) = ofLines first text.unifyBreaks := by
  rw [decodeLines, Encoding.decode_encode encoding first ascii]

/-- The bytes of a text give the source, or the fault, that the text gives, if its first line has
no return but at its end and what follows a pragma that names ASCII is ASCII. -/
theorem ofBytes_encode {text : Text} (returns : '\r' ∉ text.firstLine.dropLast)
    (ascii : ∀ label, Encoding.pragma text.firstLine = some label →
      Encoding.ofLabel? label = some .ascii →
        ∀ character ∈ text.afterFirstLine, character.toNat < 0x80) :
    ofBytes (Utf8.encode text) = ofText text := by
  obtain ⟨samePragma, sameRest⟩ := Text.firstLine_unifyBreaks returns
  obtain ⟨pragma, rest⟩ := splitFirstLine_encode text
  unfold ofBytes ofText
  simp only
  rw [Text.headD_lines, samePragma, sameRest, pragma, rest]
  cases found : Encoding.pragma text.firstLine with
  | none => exact decodeLines_encode .utf8 1 (by simp)
  | some label =>
      simp only [Encoding.ofLabel]
      cases named : Encoding.ofLabel? label with
      | none => rfl
      | some encoding =>
          apply decodeLines_encode encoding 2
          rintro rfl
          exact ascii label found named

/-- A pragma line that ends with a return and a newline, before lines with either break. -/
theorem ofBytes_encode_ascii :
    ofBytes (Utf8.encode "-# coding: us-ascii\r\n%a\r%b".toList) =
        ofText "-# coding: us-ascii\r\n%a\r%b".toList ∧
      ofText "-# coding: us-ascii\r\n%a\r%b".toList =
        .ok ⟨[(2, "%a".toList), (3, "%b".toList)], none, 2⟩ := by
  have ascii : (Text.afterFirstLine "-# coding: us-ascii\r\n%a\r%b".toList).all
      (·.toNat < 0x80) = true := by
    decide
  refine ⟨ofBytes_encode (by decide) ?_, by decide +kernel⟩
  intro label _ _ character member
  exact of_decide_eq_true (List.all_eq_true.mp ascii character member)

end Source
end Stencil
