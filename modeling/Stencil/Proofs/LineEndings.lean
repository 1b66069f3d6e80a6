import Stencil.Proofs.LineDecoding

/-! Sources over lines that are ended in one of three styles.

A newline, alone or behind a return, ends the first line and counts for a line, so both give the
same source.  A lone return does neither: the whole is looked through for a pragma, whose line
then hides the others, and every line that cannot be decoded is numbered one.  The main theorem
says exactly when the source is the same all the same. -/

namespace Stencil

/-! ### Unifying the endings -/

theorem not_mem_intercalate {α : Type} {item : α} {separator : List α} {parts : List (List α)}
    (outside : item ∉ separator) (free : ∀ part ∈ parts, item ∉ part) :
    item ∉ separator.intercalate parts := by
  induction parts with
  | nil => exact List.not_mem_nil
  | cons part others ih =>
      rw [List.forall_mem_cons] at free
      cases others with
      | nil => rw [List.intercalate_singleton]; exact free.1
      | cons next others =>
          rw [List.intercalate_cons_cons, List.mem_append, List.mem_append]
          rintro ((member | member) | member)
          · exact free.1 member
          · exact outside member
          · exact ih free.2 member

namespace Text

theorem unifyBreaks_return {rest : Text} (unbroken : '\n' ∉ rest) :
    unifyBreaks ('\r' :: rest) = '\n' :: unifyBreaks rest := by
  cases rest with
  | nil => rfl
  | cons next others =>
      simp only [List.mem_cons, not_or] at unbroken
      have kept : joinReturns ('\r' :: next :: others) = '\r' :: joinReturns (next :: others) := by
        rw [joinReturns]
        rintro after - same
        exact unbroken.1 (List.cons.inj same).1.symm
      rw [unifyBreaks, kept]
      rfl

theorem unifyBreaks_join {texts : List Text} (ending : LineEnding)
    (unbroken : ∀ text ∈ texts, '\n' ∉ text ∧ '\r' ∉ text) :
    unifyBreaks (ending.text.intercalate texts) = ['\n'].intercalate texts := by
  induction texts with
  | nil => rfl
  | cons text others ih =>
      rw [List.forall_mem_cons] at unbroken
      cases others with
      | nil =>
          rw [List.intercalate_singleton, List.intercalate_singleton,
            unifyBreaks_of_not_mem unbroken.1.2]
      | cons second others =>
          have later := ih unbroken.2
          rw [List.intercalate_cons_cons, List.intercalate_cons_cons, List.append_assoc,
            List.append_assoc, unifyBreaks_append _ unbroken.1.2, ← later]
          cases ending with
          | lf => rfl
          | crlf => rfl
          | cr =>
              have clean : '\n' ∉ ['\r'].intercalate (second :: others) :=
                not_mem_intercalate (by decide) fun line member => (unbroken.2 line member).1
              exact congrArg (text ++ ·) (unifyBreaks_return clean)

theorem lines_eq_nil_iff {text : Text} : text.lines = [] ↔ text = [] := by
  cases text with
  | nil => simp [lines]
  | cons character rest =>
      unfold lines
      split
      · simp
      · split <;> simp

end Text

/-! ### Sources over joined lines -/

namespace Source

def loadEach (encoding : Encoding) (step first : Nat) (lines : List Utf8.Bytes) :
    Except Fault Source :=
  (encoding.decodeEach step first lines).bind fun texts => ofLines first (['\n'].intercalate texts)

theorem decodeLines_join {lines : List Utf8.Bytes} (encoding : Encoding) (ending : LineEnding)
    (first : Nat) (unbroken : ∀ line ∈ lines, Utf8.Unbroken line) :
    decodeLines encoding first (ending.join lines) =
      loadEach encoding ending.newlines first lines := by
  rw [decodeLines, loadEach, Encoding.decode_join encoding ending first unbroken]
  cases decoded : encoding.decodeEach ending.newlines first lines with
  | error fault => rfl
  | ok texts =>
      have clean := Encoding.unbroken_of_reads unbroken (Encoding.decodeEach_eq_ok_iff.mp decoded)
      exact congrArg (ofLines first) (Text.unifyBreaks_join ending clean)

/-- Obeys the pragma of a first line: without one the line counts with the others. -/
def obey (pragma : Option Text) (whole : Except Fault Source)
    (rest : Encoding → Except Fault Source) : Except Fault Source :=
  match pragma with
  | none => whole
  | some label => (Encoding.ofLabel label).bind rest

theorem ofBytes_eq (bytes : Utf8.Bytes) :
    ofBytes bytes =
      obey (pragmaOfBytes (splitFirstLine bytes).1) (decodeLines .utf8 1 bytes)
        fun encoding => decodeLines encoding 2 (splitFirstLine bytes).2 := by
  unfold ofBytes obey
  simp only
  cases pragmaOfBytes (splitFirstLine bytes).1 with
  | none => rfl
  | some label =>
      simp only
      cases Encoding.ofLabel label <;> rfl

theorem pragmaOfBytes_eq (bytes : Utf8.Bytes) :
    pragmaOfBytes bytes = (Encoding.utf8.decode 1 bytes).toOption.bind Encoding.pragma := by
  rw [pragmaOfBytes, Encoding.decode_eq, Encoding.read_utf8]
  cases Utf8.decode bytes <;> rfl

theorem pragmaOfBytes_ending {line : Utf8.Bytes} (ending : LineEnding)
    (unbroken : Utf8.Unbroken line) :
    pragmaOfBytes (line ++ ending.bytes) = pragmaOfBytes line := by
  have decoded := Encoding.decode_ending .utf8 ending 1 unbroken.1 []
  rw [List.append_nil, Encoding.decode_nil] at decoded
  rw [pragmaOfBytes_eq, pragmaOfBytes_eq, decoded]
  cases found : Encoding.utf8.decode 1 line with
  | error fault => rfl
  | ok text =>
      have free := (Encoding.unbroken_of_read unbroken (Encoding.decode_eq_ok_iff.mp found)).1
      change Encoding.pragma (text ++ (ending.text ++ [])) = Encoding.pragma text
      rw [List.append_nil]
      cases ending with
      | lf => exact Encoding.pragma_newline [] free
      | cr => exact Encoding.pragma_lastReturn free
      | crlf =>
          have apart : text ++ ['\r', '\n'] = text ++ ['\r'] ++ '\n' :: [] := by simp
          rw [LineEnding.text, apart, Encoding.pragma_newline [] (by simp [free]),
            Encoding.pragma_lastReturn free]

theorem splitFirstLine_join {line : Utf8.Bytes} {others : List Utf8.Bytes} {ending : LineEnding}
    (newline : ending ≠ .cr) (unbroken : Utf8.Unbroken line) :
    pragmaOfBytes (splitFirstLine (ending.join (line :: others))).1 = pragmaOfBytes line ∧
      (splitFirstLine (ending.join (line :: others))).2 = ending.join others := by
  cases others with
  | nil =>
      rw [LineEnding.join, List.intercalate_singleton, splitFirstLine_unbroken unbroken.1]
      exact ⟨rfl, rfl⟩
  | cons second others =>
      have split : splitFirstLine (ending.join (line :: second :: others)) =
          (line ++ ending.bytes, ending.join (second :: others)) := by
        rw [LineEnding.join, List.intercalate_cons_cons]
        cases ending with
        | cr => contradiction
        | lf =>
            rw [List.append_assoc]
            exact splitFirstLine_newline _ unbroken.1
        | crlf =>
            have apart : line ++ [0x0D, 0x0A] = line ++ [0x0D] ++ [0x0A] := by simp
            have free : 0x0A ∉ line ++ [0x0D] := by simp [unbroken.1]
            rw [LineEnding.bytes, apart, List.append_assoc]
            exact splitFirstLine_newline _ free
      rw [split]
      exact ⟨pragmaOfBytes_ending ending unbroken, rfl⟩

theorem ofBytes_newline {line : Utf8.Bytes} {others : List Utf8.Bytes} {ending : LineEnding}
    (newline : ending ≠ .cr) (unbroken : ∀ given ∈ line :: others, Utf8.Unbroken given) :
    ofBytes (ending.join (line :: others)) =
      obey (pragmaOfBytes line) (loadEach .utf8 1 1 (line :: others))
        fun encoding => loadEach encoding 1 2 others := by
  have counted : ending.newlines = 1 := by
    cases ending with
    | cr => contradiction
    | lf => rfl
    | crlf => rfl
  have each := List.forall_mem_cons.mp unbroken
  obtain ⟨pragma, rest⟩ := @splitFirstLine_join line others ending newline each.1
  rw [ofBytes_eq, pragma, rest, decodeLines_join .utf8 ending 1 unbroken, counted]
  congr 1
  funext encoding
  rw [decodeLines_join encoding ending 2 each.2, counted]

/-- With lone returns everything is the first line, and behind its pragma nothing is left. -/
theorem ofBytes_return {lines : List Utf8.Bytes}
    (unbroken : ∀ line ∈ lines, Utf8.Unbroken line) :
    ofBytes (LineEnding.cr.join lines) =
      obey (pragmaOfBytes (LineEnding.cr.join lines)) (loadEach .utf8 0 1 lines)
        fun _ => .ok ⟨[], none, 2⟩ := by
  have free : 0x0A ∉ LineEnding.cr.join lines :=
    not_mem_intercalate (by decide) fun line member => (unbroken line member).1
  rw [ofBytes_eq, splitFirstLine_unbroken free, decodeLines_join .utf8 .cr 1 unbroken]
  congr 1
  funext encoding
  rw [decodeLines, Encoding.decode_nil]
  rfl

/-- Without valid UTF-8 in some line the source is refused at the first line that cannot be
decoded. -/
theorem loadEach_of_invalid {step first : Nat} {lines : List Utf8.Bytes} (encoding : Encoding)
    (unbroken : ∀ line ∈ lines, Utf8.Unbroken line) (invalid : ¬∀ line ∈ lines, Utf8.Valid line) :
    ∃ index, loadEach encoding step first lines =
        .error (.invalidCharacter (first + index * step) '\ufffd') ∧
      ∃ line offset, lines[index]? = some line ∧ encoding.read line = .error offset := by
  cases decoded : encoding.decodeEach step first lines with
  | ok texts =>
      have reads := Encoding.decodeEach_eq_ok_iff.mp decoded
      exact absurd (Encoding.valid_of_reads reads) invalid
  | error fault =>
      obtain ⟨index, rfl, failed⟩ := Encoding.decodeEach_error unbroken decoded
      refine ⟨index, ?_, failed⟩
      rw [loadEach, decoded]
      rfl

theorem pragmaOfBytes_of_invalid {lines : List Utf8.Bytes}
    (unbroken : ∀ line ∈ lines, Utf8.Unbroken line) (invalid : ¬∀ line ∈ lines, Utf8.Valid line) :
    pragmaOfBytes (LineEnding.cr.join lines) = none := by
  rw [pragmaOfBytes_eq, Encoding.decode_join .utf8 .cr 1 unbroken]
  cases decoded : Encoding.utf8.decodeEach LineEnding.cr.newlines 1 lines with
  | ok texts =>
      have reads := Encoding.decodeEach_eq_ok_iff.mp decoded
      exact absurd (Encoding.valid_of_reads reads) invalid
  | error fault => rfl

/-- The pragma of a first line is found behind lone returns too. -/
theorem pragmaOfBytes_join_return {line : Utf8.Bytes} {others : List Utf8.Bytes} {label : Text}
    (unbroken : ∀ given ∈ line :: others, Utf8.Unbroken given)
    (valid : ∀ given ∈ line :: others, Utf8.Valid given)
    (named : pragmaOfBytes line = some label) :
    pragmaOfBytes (LineEnding.cr.join (line :: others)) = some label := by
  obtain ⟨texts, decoded⟩ :=
    @Encoding.exists_decodeEach LineEnding.cr.newlines 1 (line :: others) valid
  have reads := Encoding.decodeEach_eq_ok_iff.mp decoded
  have clean := Encoding.unbroken_of_reads unbroken reads
  obtain ⟨text, later, head, -, rfl⟩ := List.forall₂_cons_left_iff.mp reads
  have pragma : Encoding.pragma text = some label := by
    rw [← named, pragmaOfBytes_eq, Encoding.decode_eq_ok_iff.mpr head]
    rfl
  rw [pragmaOfBytes_eq, Encoding.decode_join .utf8 .cr 1 unbroken, decoded]
  change Encoding.pragma (['\r'].intercalate (text :: later)) = some label
  cases later with
  | nil => rwa [List.intercalate_singleton]
  | cons next later =>
      have free := (clean text List.mem_cons_self).1
      rw [List.intercalate_cons_cons, List.append_assoc]
      refine (Encoding.pragma_return _ free).trans ?_
      rw [pragma]
      rfl

/-! ### Lone returns -/

section Returns

variable {line : Utf8.Bytes} {others : List Utf8.Bytes}

theorem return_eq_of_invalid (unbroken : ∀ given ∈ line :: others, Utf8.Unbroken given)
    (invalid : ¬Utf8.Valid line) :
    ofBytes (LineEnding.cr.join (line :: others)) =
      ofBytes (LineEnding.lf.join (line :: others)) := by
  have some : ¬∀ given ∈ line :: others, Utf8.Valid given :=
    fun valid => invalid (valid line List.mem_cons_self)
  cases decoded : Encoding.utf8.decode 1 line with
  | ok text =>
      have read := Encoding.decode_of_read (Encoding.decode_eq_ok_iff.mp decoded)
      exact absurd (Utf8.valid_iff.mpr ⟨text, read⟩) invalid
  | error fault =>
      -- the first line is refused before any ending counts
      have refused (step : Nat) : loadEach .utf8 step 1 (line :: others) = .error fault := by
        rw [loadEach, Encoding.decodeEach, decoded]
        rfl
      have plain : pragmaOfBytes line = none := by
        rw [pragmaOfBytes_eq, decoded]
        rfl
      rw [ofBytes_return unbroken, ofBytes_newline (by decide) unbroken,
        pragmaOfBytes_of_invalid unbroken some, plain, obey, obey, refused, refused]

/-- A later line that is not UTF-8 is refused under its own number, and with lone returns under
that of the first line. -/
theorem return_ne_of_invalid (unbroken : ∀ given ∈ line :: others, Utf8.Unbroken given)
    (first : Utf8.Valid line) (invalid : ¬∀ given ∈ line :: others, Utf8.Valid given) :
    ofBytes (LineEnding.cr.join (line :: others)) ≠
      ofBytes (LineEnding.lf.join (line :: others)) := by
  obtain ⟨index, refused, -⟩ := @loadEach_of_invalid 0 1 _ .utf8 unbroken invalid
  rw [ofBytes_return unbroken, ofBytes_newline (by decide) unbroken,
    pragmaOfBytes_of_invalid unbroken invalid]
  change loadEach .utf8 0 1 (line :: others) ≠ _
  rw [refused]
  cases pragmaOfBytes line with
  | none =>
      obtain ⟨later, numbered, given, offset, found, failed⟩ :=
        @loadEach_of_invalid 1 1 _ .utf8 unbroken invalid
      change _ ≠ loadEach .utf8 1 1 (line :: others)
      rw [numbered]
      intro same
      simp only [Except.error.injEq, Fault.invalidCharacter.injEq, and_true] at same
      obtain rfl : later = 0 := by omega
      obtain ⟨text, decoded⟩ := Utf8.valid_iff.mp first
      cases found
      rw [Encoding.read_utf8, decoded] at failed
      contradiction
  | some label =>
      change _ ≠ (Encoding.ofLabel label).bind _
      rw [Encoding.ofLabel]
      cases Encoding.ofLabel? label with
      | none => simp [Except.bind]
      | some encoding =>
          have elsewhere : ¬∀ given ∈ others, Utf8.Valid given :=
            fun valid => invalid (List.forall_mem_cons.mpr ⟨first, valid⟩)
          obtain ⟨later, numbered, -⟩ := @loadEach_of_invalid 1 2 _ encoding
            (List.forall_mem_cons.mp unbroken).2 elsewhere
          change _ ≠ loadEach encoding 1 2 others
          rw [numbered]
          intro same
          simp only [Except.error.injEq, Fault.invalidCharacter.injEq, and_true] at same
          omega

theorem loadEach_eq_empty_iff {encoding : Encoding} {lines : List Utf8.Bytes} :
    loadEach encoding 1 2 lines = .ok ⟨[], none, 2⟩ ↔ lines = [] ∨ lines = [[]] := by
  constructor
  · intro loaded
    cases decoded : encoding.decodeEach 1 2 lines with
    | error fault => simp [loadEach, decoded, Except.bind] at loaded
    | ok texts =>
        rw [loadEach, decoded] at loaded
        obtain ⟨-, empty⟩ := ofLines_eq_ok_iff.mp loaded
        have numbered : numberFrom 2 (Text.lines (['\n'].intercalate texts)) = [] :=
          (congrArg Source.lines empty).symm
        have nothing : ['\n'].intercalate texts = [] := by
          rw [← Text.lines_eq_nil_iff]
          cases given : Text.lines (['\n'].intercalate texts) with
          | nil => rfl
          | cons line others =>
              rw [given] at numbered
              contradiction
        cases Encoding.decodeEach_eq_ok_iff.mp decoded with
        | nil => exact .inl rfl
        | cons head tail =>
            right
            cases tail with
            | nil =>
                rw [List.intercalate_singleton] at nothing
                subst nothing
                have bytes := Utf8.encode_of_decode (Encoding.decode_of_read head)
                rw [← bytes]
                rfl
            | cons next tail => simp [List.intercalate_cons_cons] at nothing
  · rintro (rfl | rfl)
    · rfl
    · rw [loadEach, Encoding.decodeEach, Encoding.decode_nil]
      rfl

/-- Lines that are UTF-8 give the same source with lone returns unless a pragma hides some of
them: one that stands behind the first line, or one before lines that are not empty. -/
theorem return_eq_iff_of_valid (unbroken : ∀ given ∈ line :: others, Utf8.Unbroken given)
    (valid : ∀ given ∈ line :: others, Utf8.Valid given) :
    ofBytes (LineEnding.cr.join (line :: others)) =
        ofBytes (LineEnding.lf.join (line :: others)) ↔
      pragmaOfBytes (LineEnding.cr.join (line :: others)) = none ∨
        ∃ label, pragmaOfBytes line = some label ∧
          (Encoding.ofLabel? label = none ∨ others = [] ∨ others = [[]]) := by
  rw [ofBytes_return unbroken, ofBytes_newline (by decide) unbroken]
  cases named : pragmaOfBytes line with
  | some label =>
      rw [pragmaOfBytes_join_return unbroken valid named]
      simp only [obey, Encoding.ofLabel, reduceCtorEq, false_or, Option.some.injEq,
        exists_eq_left']
      cases Encoding.ofLabel? label with
      | none => simp [Except.bind]
      | some encoding =>
          simp only [Except.bind, reduceCtorEq, false_or]
          rw [eq_comm, loadEach_eq_empty_iff]
  | none =>
      simp only [reduceCtorEq, false_and, exists_false, or_false]
      obtain ⟨texts, decoded⟩ := @Encoding.exists_decodeEach 1 1 (line :: others) valid
      have loaded (step : Nat) : loadEach .utf8 step 1 (line :: others) =
          ofLines 1 (['\n'].intercalate texts) := by
        rw [loadEach, Encoding.decodeEach_eq_ok_iff.mpr (Encoding.decodeEach_eq_ok_iff.mp decoded)]
        rfl
      rw [loaded, loaded]
      cases pragmaOfBytes (LineEnding.cr.join (line :: others)) with
      | none => simp [obey]
      | some label =>
          simp only [obey, Encoding.ofLabel, reduceCtorEq, iff_false]
          cases Encoding.ofLabel? label with
          | none =>
              change Except.error _ ≠ ofLines 1 _
              unfold ofLines
              simp only
              split <;> simp
          | some encoding =>
              -- lines without a pragma are numbered from one
              intro same
              obtain ⟨-, empty⟩ := ofLines_eq_ok_iff.mp same.symm
              have numbered : 2 = 1 := congrArg Source.number empty
              omega

/-- Lines that end with a return and a newline give the source, or the fault, that they give with
newlines.  With lone returns they do exactly if the first line is not UTF-8, or all lines are and
no pragma is found in them, or the first line has one that is refused or hides nothing. -/
theorem ofBytes_join_iff (unbroken : ∀ given ∈ line :: others, Utf8.Unbroken given) :
    ofBytes (LineEnding.crlf.join (line :: others)) =
        ofBytes (LineEnding.lf.join (line :: others)) ∧
      (ofBytes (LineEnding.cr.join (line :: others)) =
          ofBytes (LineEnding.lf.join (line :: others)) ↔
        ¬Utf8.Valid line ∨
          (∀ given ∈ line :: others, Utf8.Valid given) ∧
            (pragmaOfBytes (LineEnding.cr.join (line :: others)) = none ∨
              ∃ label, pragmaOfBytes line = some label ∧
                (Encoding.ofLabel? label = none ∨ others = [] ∨ others = [[]]))) := by
  constructor
  · rw [ofBytes_newline (by decide) unbroken, ofBytes_newline (by decide) unbroken]
  · by_cases first : Utf8.Valid line
    · by_cases valid : ∀ given ∈ line :: others, Utf8.Valid given
      · rw [return_eq_iff_of_valid unbroken valid]
        simp only [first, not_true_eq_false, false_or, iff_and_self]
        intro _
        exact valid
      · simp only [first, valid, not_true_eq_false, false_and, or_false, iff_false]
        exact return_ne_of_invalid unbroken first valid
    · simp only [first, not_false_eq_true, true_or, iff_true]
      exact return_eq_of_invalid unbroken first

end Returns

/-- A pragma line with an empty line behind it is read alike with each of the endings. -/
theorem ofBytes_join_pragma :
    ofBytes (LineEnding.crlf.join [Utf8.encode "// coding: utf-8".toList, []]) =
        ofBytes (LineEnding.lf.join [Utf8.encode "// coding: utf-8".toList, []]) ∧
      ofBytes (LineEnding.cr.join [Utf8.encode "// coding: utf-8".toList, []]) =
        ofBytes (LineEnding.lf.join [Utf8.encode "// coding: utf-8".toList, []]) := by
  have unbroken : ∀ given ∈ [Utf8.encode "// coding: utf-8".toList, []], Utf8.Unbroken given := by
    simp only [Utf8.Unbroken]
    decide
  obtain ⟨alike, returns⟩ := ofBytes_join_iff unbroken
  refine ⟨alike, returns.mpr (.inr ⟨?_, .inr ⟨"utf-8".toList, ?_, .inr (.inr rfl)⟩⟩)⟩
  · simp only [List.mem_cons, List.not_mem_nil, or_false, forall_eq_or_imp, forall_eq]
    exact ⟨⟨_, rfl⟩, [], rfl⟩
  · decide +kernel

/-- Behind a pragma line that ends with a lone return every line is lost. -/
theorem ofBytes_return_loses_lines :
    ofBytes (LineEnding.lf.join
        [Utf8.encode "// coding: utf-8".toList, Utf8.encode "%a".toList]) =
        .ok ⟨[(2, "%a".toList)], none, 2⟩ ∧
      ofBytes (LineEnding.cr.join
        [Utf8.encode "// coding: utf-8".toList, Utf8.encode "%a".toList]) =
        .ok ⟨[], none, 2⟩ := by
  decide +kernel

end Source

end Stencil
