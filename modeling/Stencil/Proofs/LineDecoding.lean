import Mathlib.Data.List.Forall2
import Stencil.Proofs.ByteSources

/-! Bytes decoded line by line.

Lines that hold no break are decoded one by one, whatever ending stands between them: a break is
a byte of its own, so no character goes over it and no fault behind it is seen before it.  Only
the number that a fault names depends on the ending, since it counts newlines. -/

namespace Stencil

inductive LineEnding where
  | lf
  | crlf
  | cr
  deriving DecidableEq, Repr

namespace LineEnding

def bytes : LineEnding → Utf8.Bytes
  | .lf => [0x0A]
  | .crlf => [0x0D, 0x0A]
  | .cr => [0x0D]

def text : LineEnding → Text
  | .lf => ['\n']
  | .crlf => ['\r', '\n']
  | .cr => ['\r']

def newlines : LineEnding → Nat
  | .lf => 1
  | .crlf => 1
  | .cr => 0

def join (ending : LineEnding) (lines : List Utf8.Bytes) : Utf8.Bytes :=
  ending.bytes.intercalate lines

end LineEnding

def Utf8.Unbroken (line : Utf8.Bytes) : Prop :=
  0x0A ∉ line ∧ 0x0D ∉ line

def Utf8.Valid (line : Utf8.Bytes) : Prop :=
  ∃ text, Utf8.encode text = line

theorem Utf8.valid_iff {line : Utf8.Bytes} :
    Utf8.Valid line ↔ ∃ text, Utf8.decode line = .ok text := by
  simp only [Utf8.Valid, Utf8.decode_eq_ok_iff]

/-! ### Decoding line by line -/

theorem Utf8.exists_decode_of_ascii {bytes : Utf8.Bytes}
    (ascii : ∀ byte ∈ bytes, byte.toNat < 0x80) : ∃ text, Utf8.decode bytes = .ok text := by
  induction bytes with
  | nil => exact ⟨[], by rw [Utf8.decode]⟩
  | cons byte rest ih =>
      rw [List.forall_mem_cons] at ascii
      obtain ⟨text, decoded⟩ := ih ascii.2
      have first := @Utf8.decode_break_of_ok [] byte [] ascii.1 (by rw [Utf8.decode]) rest
      rw [decoded] at first
      exact ⟨_, first⟩

namespace Encoding

theorem read_large {lead : Utf8.Bytes} {byte : UInt8} (rest : Utf8.Bytes)
    (small : ∀ earlier ∈ lead, earlier.toNat < 0x80) (large : ¬byte.toNat < 0x80) :
    ascii.read (lead ++ byte :: rest) = .error lead.length := by
  have taken : (lead ++ byte :: rest).takeWhile (·.toNat < 0x80) = lead := by
    rw [List.takeWhile_append_of_pos fun earlier member => decide_eq_true (small earlier member),
      List.takeWhile_cons_of_neg (by simpa using large), List.append_nil]
  rw [read, taken, if_pos]
  refine ⟨rfl, ?_⟩
  rw [List.length_append, List.length_cons]
  omega

theorem small_or_large (bytes : Utf8.Bytes) :
    (∀ byte ∈ bytes, byte.toNat < 0x80) ∨
      ∃ lead byte rest, bytes = lead ++ byte :: rest ∧ (∀ earlier ∈ lead, earlier.toNat < 0x80) ∧
        ¬byte.toNat < 0x80 := by
  cases found : bytes.find? fun byte => decide (¬byte.toNat < 0x80) with
  | none =>
      left
      intro byte member
      simpa using List.find?_eq_none.mp found byte member
  | some byte =>
      right
      obtain ⟨large, lead, rest, split, small⟩ := List.find?_eq_some_iff_append.mp found
      refine ⟨lead, byte, rest, split, ?_, of_decide_eq_true large⟩
      intro earlier member
      simpa using small earlier member

theorem read_break_of_error {encoding : Encoding} {line : Utf8.Bytes} {brk : UInt8} {offset : Nat}
    (ascii : brk.toNat < 0x80) (failed : encoding.read line = .error offset) (rest : Utf8.Bytes) :
    encoding.read (line ++ brk :: rest) = .error offset := by
  cases encoding with
  | utf8 =>
      rw [read_utf8] at failed ⊢
      exact Utf8.decode_break_of_error ascii failed rest
  | ascii =>
      rcases small_or_large line with small | ⟨lead, byte, others, rfl, small, large⟩
      · obtain ⟨text, decoded⟩ := Utf8.exists_decode_of_ascii small
        rw [read_of_ascii fun _ => small, decoded] at failed
        contradiction
      · rw [read_large others small large] at failed
        rw [List.append_assoc, List.cons_append, read_large _ small large, failed]

theorem read_break_of_ok {encoding : Encoding} {line : Utf8.Bytes} {brk : UInt8} {text : Text}
    (ascii : brk.toNat < 0x80) (decoded : encoding.read line = .ok text) (rest : Utf8.Bytes) :
    encoding.read (line ++ brk :: rest) =
      match encoding.read rest with
      | .ok more => .ok (text ++ Char.ofNat brk.toNat :: more)
      | .error offset => .error (line.length + 1 + offset) := by
  cases encoding with
  | utf8 =>
      rw [read_utf8] at decoded
      rw [read_utf8, read_utf8]
      exact Utf8.decode_break_of_ok ascii decoded rest
  | ascii =>
      rcases small_or_large line with small | ⟨lead, byte, others, rfl, small, large⟩
      · rw [read_of_ascii fun _ => small] at decoded
        rcases small_or_large rest with later | ⟨lead, byte, others, rfl, later, large⟩
        · have whole : ∀ byte ∈ line ++ brk :: rest, byte.toNat < 0x80 := by
            rw [List.forall_mem_append, List.forall_mem_cons]
            exact ⟨small, ascii, later⟩
          rw [read_of_ascii fun _ => whole, read_of_ascii fun _ => later]
          exact Utf8.decode_break_of_ok ascii decoded rest
        · have before : ∀ byte ∈ line ++ brk :: lead, byte.toNat < 0x80 := by
            rw [List.forall_mem_append, List.forall_mem_cons]
            exact ⟨small, ascii, later⟩
          have refused := read_large others before large
          rw [List.append_assoc, List.cons_append] at refused
          rw [refused, read_large others later large, List.length_append, List.length_cons]
          simp only [Except.error.injEq]
          omega
      · rw [read_large others small large] at decoded
        contradiction

theorem read_error_lt {encoding : Encoding} {bytes : Utf8.Bytes} {offset : Nat}
    (failed : encoding.read bytes = .error offset) : offset < bytes.length := by
  unfold read at failed
  split at failed
  · rename_i early
    cases failed
    exact early.2
  · exact Utf8.decode_error_lt failed

/-- Decodes lines one by one, each numbered `step` above the line before it. -/
def decodeEach (encoding : Encoding) (step : Nat) :
    Nat → List Utf8.Bytes → Except Fault (List Text)
  | _, [] => .ok []
  | number, line :: others =>
      (encoding.decode number line).bind fun text =>
        (decodeEach encoding step (number + step) others).map (text :: ·)

theorem decode_break {line : Utf8.Bytes} {brk : UInt8} (encoding : Encoding) (first : Nat)
    (ascii : brk.toNat < 0x80) (unbroken : 0x0A ∉ line) (rest : Utf8.Bytes) :
    encoding.decode first (line ++ brk :: rest) =
      (encoding.decode first line).bind fun text =>
        (encoding.decode (first + [brk].count 0x0A) rest).map
          fun more => text ++ Char.ofNat brk.toNat :: more := by
  rw [decode_eq, decode_eq, decode_eq]
  cases decoded : encoding.read line with
  | error offset =>
      have early := read_error_lt decoded
      rw [read_break_of_error ascii decoded]
      have same : undecodable first (line ++ brk :: rest) offset =
          undecodable first line offset := by
        rw [undecodable, undecodable, lineAt, lineAt, List.take_append_of_le_length (by omega)]
      exact congrArg Except.error same
  | ok text =>
      rw [read_break_of_ok ascii decoded]
      cases later : encoding.read rest with
      | ok more => rfl
      | error offset =>
          have same : undecodable first (line ++ brk :: rest) (line.length + 1 + offset) =
              undecodable (first + [brk].count 0x0A) rest offset := by
            have before : line.count 0x0A = 0 := List.count_eq_zero.mpr unbroken
            have taken : (line ++ brk :: rest).take (line.length + 1 + offset) =
                line ++ ([brk] ++ rest.take offset) := by
              rw [Nat.add_assoc, List.take_length_add_append, Nat.add_comm 1, List.take_succ_cons]
              rfl
            rw [undecodable, undecodable, lineAt, lineAt, taken, List.count_append,
              List.count_append, before]
            congr 1
            omega
          exact congrArg Except.error same

theorem decode_nil (encoding : Encoding) (first : Nat) : encoding.decode first [] = .ok [] :=
  @decode_encode [] encoding first (by simp)

theorem decode_eq_ok_iff {encoding : Encoding} {first : Nat} {line : Utf8.Bytes} {text : Text} :
    encoding.decode first line = .ok text ↔ encoding.read line = .ok text := by
  rw [decode_eq]
  cases encoding.read line with
  | ok found => simp [Except.mapError]
  | error offset => simp [Except.mapError]

/-- Whether lines can be decoded does not depend on their numbers. -/
theorem decodeEach_eq_ok_iff {encoding : Encoding} {step first : Nat} {lines : List Utf8.Bytes}
    {texts : List Text} :
    encoding.decodeEach step first lines = .ok texts ↔
      List.Forall₂ (fun line text => encoding.read line = .ok text) lines texts := by
  induction lines generalizing first texts with
  | nil =>
      rw [decodeEach, List.forall₂_nil_left_iff, Except.ok.injEq, eq_comm]
  | cons line others ih =>
      rw [decodeEach, List.forall₂_cons_left_iff]
      constructor
      · intro decoded
        cases head : encoding.decode first line with
        | error fault => simp [head, Except.bind] at decoded
        | ok text =>
            cases tail : encoding.decodeEach step (first + step) others with
            | error fault => simp [head, tail, Except.bind, Except.map] at decoded
            | ok later =>
                rw [head, tail] at decoded
                cases decoded
                exact ⟨text, later, decode_eq_ok_iff.mp head, ih.mp tail, rfl⟩
      · rintro ⟨text, later, head, tail, rfl⟩
        rw [decode_eq_ok_iff.mpr head, ih.mpr tail]
        rfl

theorem decode_ending {line : Utf8.Bytes} (encoding : Encoding) (ending : LineEnding) (first : Nat)
    (unbroken : 0x0A ∉ line) (rest : Utf8.Bytes) :
    encoding.decode first (line ++ (ending.bytes ++ rest)) =
      (encoding.decode first line).bind fun text =>
        (encoding.decode (first + ending.newlines) rest).map
          fun more => text ++ (ending.text ++ more) := by
  cases ending with
  | lf => exact decode_break encoding first (by decide) unbroken rest
  | cr => exact decode_break encoding first (by decide) unbroken rest
  | crlf =>
      -- two breaks of one byte with nothing between them, of which only the second counts
      have outer := @decode_break line 0x0D encoding first (by decide) unbroken (0x0A :: rest)
      have inner := @decode_break [] 0x0A encoding first (by decide) List.not_mem_nil rest
      rw [decode_nil] at inner
      refine outer.trans ?_
      congr 1
      funext text
      change (encoding.decode first ([] ++ 0x0A :: rest)).map _ = _
      rw [inner]
      change ((encoding.decode (first + 1) rest).map _).map _ =
        (encoding.decode (first + 1) rest).map _
      cases encoding.decode (first + 1) rest <;> rfl

theorem decode_join {lines : List Utf8.Bytes} (encoding : Encoding) (ending : LineEnding)
    (first : Nat) (unbroken : ∀ line ∈ lines, Utf8.Unbroken line) :
    encoding.decode first (ending.join lines) =
      (encoding.decodeEach ending.newlines first lines).map ending.text.intercalate := by
  induction lines generalizing first with
  | nil => exact decode_nil encoding first
  | cons line others ih =>
      rw [List.forall_mem_cons] at unbroken
      cases others with
      | nil =>
          rw [LineEnding.join, List.intercalate_singleton, decodeEach, decodeEach]
          cases encoding.decode first line with
          | error fault => rfl
          | ok text =>
              refine congrArg Except.ok ?_
              exact List.intercalate_singleton.symm
      | cons second others =>
          rw [LineEnding.join, List.intercalate_cons_cons, List.append_assoc,
            decode_ending encoding ending first unbroken.1.1, decodeEach]
          change (encoding.decode first line).bind (fun text =>
            (encoding.decode (first + ending.newlines) (ending.join (second :: others))).map _) = _
          rw [ih (first + ending.newlines) unbroken.2]
          cases encoding.decode first line with
          | error fault => rfl
          | ok text =>
              change ((encoding.decodeEach _ _ (second :: others)).map _).map _ =
                ((encoding.decodeEach _ _ (second :: others)).map _).map _
              cases later : encoding.decodeEach ending.newlines (first + ending.newlines)
                  (second :: others) with
              | error fault => rfl
              | ok texts =>
                  obtain ⟨next, rest, -, -, rfl⟩ :=
                    List.forall₂_cons_left_iff.mp (decodeEach_eq_ok_iff.mp later)
                  refine congrArg Except.ok ?_
                  change text ++ (ending.text ++ ending.text.intercalate (next :: rest)) =
                    ending.text.intercalate (text :: next :: rest)
                  rw [List.intercalate_cons_cons, List.append_assoc]

theorem decodeEach_error {encoding : Encoding} {step first : Nat} {lines : List Utf8.Bytes}
    {fault : Fault} (unbroken : ∀ line ∈ lines, Utf8.Unbroken line)
    (failed : encoding.decodeEach step first lines = .error fault) :
    ∃ index, fault = .invalidCharacter (first + index * step) '\ufffd' ∧
      ∃ line offset, lines[index]? = some line ∧ encoding.read line = .error offset := by
  induction lines generalizing first with
  | nil => contradiction
  | cons line others ih =>
      rw [List.forall_mem_cons] at unbroken
      rw [decodeEach] at failed
      cases head : encoding.read line with
      | error offset =>
          rw [decode_eq, head] at failed
          cases failed
          refine ⟨0, ?_, line, offset, rfl, head⟩
          have before : (line.take offset).count 0x0A = 0 :=
            List.count_eq_zero.mpr fun member => unbroken.1.1 (List.mem_of_mem_take member)
          rw [undecodable, lineAt, before, Nat.zero_mul]
      | ok text =>
          rw [decode_eq_ok_iff.mpr head] at failed
          cases tail : encoding.decodeEach step (first + step) others with
          | ok texts => simp [tail, Except.bind, Except.map] at failed
          | error later =>
              rw [tail] at failed
              cases failed
              obtain ⟨index, named, found⟩ := ih unbroken.2 tail
              refine ⟨index + 1, ?_, found⟩
              rw [named, Nat.succ_mul]
              congr 1
              omega

theorem decode_of_read {encoding : Encoding} {line : Utf8.Bytes} {text : Text}
    (decoded : encoding.read line = .ok text) : Utf8.decode line = .ok text := by
  unfold read at decoded
  split at decoded
  · contradiction
  · exact decoded

theorem unbroken_of_read {encoding : Encoding} {line : Utf8.Bytes} {text : Text}
    (unbroken : Utf8.Unbroken line) (decoded : encoding.read line = .ok text) :
    '\n' ∉ text ∧ '\r' ∉ text := by
  obtain rfl := Utf8.encode_of_decode (decode_of_read decoded)
  constructor
  · intro member
    exact unbroken.1 ((Utf8.mem_encode_iff (by decide)).mpr member)
  · intro member
    exact unbroken.2 ((Utf8.mem_encode_iff (by decide)).mpr member)

theorem unbroken_of_reads {encoding : Encoding} {lines : List Utf8.Bytes} {texts : List Text}
    (unbroken : ∀ line ∈ lines, Utf8.Unbroken line)
    (reads : List.Forall₂ (fun line text => encoding.read line = .ok text) lines texts) :
    ∀ text ∈ texts, '\n' ∉ text ∧ '\r' ∉ text := by
  induction reads with
  | nil => simp
  | cons head tail ih =>
      rw [List.forall_mem_cons] at unbroken ⊢
      exact ⟨unbroken_of_read unbroken.1 head, ih unbroken.2⟩

theorem valid_of_reads {encoding : Encoding} {lines : List Utf8.Bytes} {texts : List Text}
    (reads : List.Forall₂ (fun line text => encoding.read line = .ok text) lines texts) :
    ∀ line ∈ lines, Utf8.Valid line := by
  induction reads with
  | nil => simp
  | cons head tail ih =>
      rw [List.forall_mem_cons]
      exact ⟨Utf8.valid_iff.mpr ⟨_, decode_of_read head⟩, ih⟩

theorem exists_decodeEach {step first : Nat} {lines : List Utf8.Bytes}
    (valid : ∀ line ∈ lines, Utf8.Valid line) :
    ∃ texts, utf8.decodeEach step first lines = .ok texts := by
  induction lines generalizing first with
  | nil => exact ⟨[], rfl⟩
  | cons line others ih =>
      rw [List.forall_mem_cons] at valid
      obtain ⟨text, decoded⟩ := Utf8.valid_iff.mp valid.1
      obtain ⟨texts, later⟩ := @ih (first + step) valid.2
      rw [← read_utf8] at decoded
      rw [decodeEach, decode_eq_ok_iff.mpr decoded, later]
      exact ⟨_, rfl⟩

end Encoding

end Stencil
