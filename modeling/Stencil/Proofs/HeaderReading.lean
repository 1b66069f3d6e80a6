import Stencil.Proofs.HeaderQuoting
import Stencil.Proofs.Headers

/-! A header as a directive.

A header is complete: it names a version and an encoding, so that nothing is added when it is
declared once more.  Written down, with values that need no backslash, it is the rest of a line
that declares it. -/

namespace Stencil
namespace Markup

namespace Directive

/-! ### Names -/

def isNameWord : Text → Bool
  | [] => false
  | first :: rest => isNameStart first && rest.all isNameCharacter

theorem isNameWord_of_readWord {first : Char} {rest name : Text}
    (read : (readWord first rest).1 = .name name) : isNameWord name = true := by
  unfold readWord at read
  split_ifs at read with mark three two assigns start quote
  · cases read
    rw [isNameWord, start, Bool.true_and]
    exact List.all_takeWhile
  · split at read <;> contradiction

theorem isNameWord_of_mem_words {line name : Text} (member : .name name ∈ words line) :
    isNameWord name = true := by
  fun_induction words line with
  | case1 => contradiction
  | case2 rest ih => exact ih member
  | case3 first rest visible word taken read ih =>
      rcases List.mem_cons.mp member with same | later
      · apply @isNameWord_of_readWord first rest
        rw [read, same]
      · exact ih later

theorem mem_of_mem_assigned {words : List Word} {name : Text} (member : name ∈ assigned words) :
    .name name ∈ words := by
  fun_induction assigned words with
  | case1 => contradiction
  | case2 first rest ih =>
      rcases List.mem_cons.mp member with rfl | later
      · exact List.mem_cons_self
      · exact List.mem_cons_of_mem _ (List.mem_cons_of_mem _ (ih later))
  | case3 word rest other ih => exact List.mem_cons_of_mem _ (ih member)

theorem isNameWord_of_parse {number : Nat} {line : Text} {directive : Directive}
    (parsed : parse number line = .ok directive) :
    ∀ entry ∈ directive.attributes, isNameWord entry.1 = true := by
  intro entry member
  apply isNameWord_of_mem_words (mem_of_mem_assigned _)
  · exact line
  · rw [← names_parse parsed]
    exact List.mem_map_of_mem member

/-! ### Written attributes -/

/-- Attributes that can be written on a directive line as they are. -/
def Writable (attributes : List (Text × Text)) : Prop :=
  ∀ entry ∈ attributes, isNameWord entry.1 = true ∧ '\x22' ∉ entry.2 ∧ '\\' ∉ entry.2

theorem words_nameWord {name after : Text} (named : isNameWord name = true)
    (stops : isNameCharacter (after.headD ' ') = false) :
    words (name ++ after) = .name name :: words after := by
  cases name with
  | nil => contradiction
  | cons first rest =>
      rw [isNameWord, Bool.and_eq_true, List.all_eq_true] at named
      exact words_name named.1 named.2 stops

theorem quotation_plain {value : Text} (after : Text) (unquoted : '\x22' ∉ value)
    (unescaped : '\\' ∉ value) :
    quotation '\x22' (value ++ '\x22' :: after) = (value, true) := by
  induction value with
  | nil =>
      cases after with
      | nil => rfl
      | cons character others => rfl
  | cons character rest ih =>
      simp only [List.mem_cons, not_or] at unquoted unescaped
      have later := ih unquoted.2 unescaped.2
      cases following : rest ++ '\x22' :: after with
      | nil => simp at following
      | cons second others =>
          rw [following] at later
          rw [List.cons_append, following, quotation, if_neg (Ne.symm unquoted.1),
            if_neg (Ne.symm unescaped.1), later]

theorem words_quotation {value : Text} (after : Text) (unquoted : '\x22' ∉ value)
    (unescaped : '\\' ∉ value) :
    words ('\x22' :: (value ++ '\x22' :: after)) = .quoted '\x22' value :: words after := by
  have unnamed : isNameStart '\x22' = false := by decide
  have read : readWord '\x22' (value ++ '\x22' :: after) =
      (.quoted '\x22' value, value.length + 1) := by
    simp [readWord, unnamed, quotation_plain after unquoted unescaped]
  rw [words_cons (by decide) read]
  simp

def assignmentWords (entry : Text × Text) : List Word :=
  [.name entry.1, .equals, .quoted '\x22' entry.2]

theorem words_assignments {attributes : List (Text × Text)} (writable : Writable attributes) :
    words (attributes.flatMap fun entry => Header.assignment entry.1 entry.2) =
      attributes.flatMap assignmentWords := by
  induction attributes with
  | nil => rw [List.flatMap_nil, words, List.flatMap_nil]
  | cons entry others ih =>
      obtain ⟨named, unquoted, unescaped⟩ := writable entry List.mem_cons_self
      have later := ih fun other member => writable other (List.mem_cons_of_mem _ member)
      have parts (after : Text) : Header.assignment entry.1 entry.2 ++ after =
          ' ' :: (entry.1 ++ '=' :: '\x22' :: (entry.2 ++ '\x22' :: after)) := by
        simp [Header.assignment]
      have assigns (after : Text) : words ('=' :: after) = .equals :: words after :=
        words_cons (by decide) rfl
      rw [List.flatMap_cons, parts, words_space, words_nameWord named rfl, assigns,
        words_quotation _ unquoted unescaped, later]
      rfl

theorem attributesOf_assignments {attributes : List (Text × Text)}
    (writable : Writable attributes) :
    attributesOf (attributes.flatMap assignmentWords) = .ok attributes := by
  induction attributes with
  | nil => rfl
  | cons entry others ih =>
      obtain ⟨-, -, unescaped⟩ := writable entry List.mem_cons_self
      have later := ih fun other member => writable other (List.mem_cons_of_mem _ member)
      have value : valueOf (.quoted '\x22' entry.2) = .ok entry.2 := by
        rw [valueOf, decodeValue, if_neg unescaped]
      rw [List.flatMap_cons, assignmentWords, List.cons_append, List.cons_append, List.cons_append,
        attributesOf, value, List.nil_append, later]

/-- A kind and attributes are read back from the line that they are written on. -/
theorem parse_assignments (number : Nat) {kind : Text} {attributes : List (Text × Text)}
    (named : isNameWord kind = true) (writable : Writable attributes) :
    parse number ("!!! ".toList ++ (kind ++
        attributes.flatMap fun entry => Header.assignment entry.1 entry.2)) =
      .ok ⟨kind, attributes⟩ := by
  have marks (after : Text) : words ("!!! ".toList ++ after) = .marker :: words after :=
    (words_cons (by decide) rfl).trans (congrArg _ (words_space after))
  have stops : isNameCharacter ((attributes.flatMap fun entry =>
      Header.assignment entry.1 entry.2).headD ' ') = false := by
    cases attributes with
    | nil => rfl
    | cons entry others => rfl
  have whole : ofWords (.marker :: .name kind :: attributes.flatMap assignmentWords) =
      .ok ⟨kind, attributes⟩ := by
    have read := attributesOf_assignments writable
    cases attributes with
    | nil => rfl
    | cons entry others =>
        rw [List.flatMap_cons] at read ⊢
        simp only [assignmentWords, List.cons_append] at read ⊢
        rw [ofWords, read]
        · rfl
        · simp
  rw [parse, marks, words_nameWord named stops, words_assignments writable, whole]

end Directive

namespace Header

open Directive (Writable isNameWord)

/-! ### Complete attributes -/

theorem find?_versionKey_withVersion (profile : Profile) (attributes : List (Text × Text)) :
    ∃ version, find? profile.versionKey (withVersion profile attributes) = some version := by
  unfold withVersion
  split
  · rename_i version found
    exact ⟨version, found⟩
  · exact ⟨profile.defaultVersion, by simp [find?]⟩

theorem withVersion_of_find? {profile : Profile} {attributes : List (Text × Text)} {version : Text}
    (named : find? profile.versionKey attributes = some version) :
    withVersion profile attributes = attributes := by
  rw [withVersion, named]

theorem withEncoding_of_find? {attributes : List (Text × Text)} {encoding : Text}
    (named : find? encodingKey attributes = some encoding)
    (folded : Encoding.foldLabel encoding = "utf8".toList) :
    withEncoding attributes = .ok (encoding, attributes) := by
  simp only [withEncoding, named, if_pos folded]

theorem mem_of_find? {name value : Text} {attributes : List (Text × Text)}
    (found : find? name attributes = some value) : (name, value) ∈ attributes := by
  obtain ⟨entry, first, rfl⟩ := Option.map_eq_some_iff.mp found
  have named : entry.1 = name := by simpa using List.find?_some first
  rw [← named]
  exact List.mem_of_find?_eq_some first

/-! ### Declaring a header once more -/

section Declared

variable {number : Nat} {directive : Directive} {header : Header} {profile : Profile}

theorem kind_ofDirective (declared : ofDirective number directive = .ok (header, profile)) :
    header.kind = profile.kind ∧ header.versionKey = profile.versionKey := by
  unfold ofDirective at declared
  split at declared
  · contradiction
  · split at declared
    · contradiction
    · cases declared
      exact ⟨rfl, rfl⟩

/-- A header names its version and its encoding. -/
theorem find?_ofDirective (declared : ofDirective number directive = .ok (header, profile)) :
    (∃ version, find? profile.versionKey header.attributes = some version) ∧
      find? encodingKey header.attributes = some header.encoding ∧
      Encoding.foldLabel header.encoding = "utf8".toList := by
  obtain rfl := profile_ofDirective declared
  obtain ⟨attributes, encoded, versioned⟩ := ofDirective_cases declared
  obtain ⟨folded, first, -⟩ := withEncoding_cases encoded
  have apart : Profile.xml.versionKey ≠ encodingKey := by decide
  rw [versioned, find?_withVersion apart]
  exact ⟨find?_versionKey_withVersion .xml attributes, first, folded⟩

/-- What is declared stands in the header between what is added. -/
theorem attributes_ofDirective (declared : ofDirective number directive = .ok (header, profile)) :
    ∃ before after, header.attributes = before ++ directive.attributes ++ after ∧
      (before = [] ∨ before = [(header.versionKey, profile.defaultVersion)]) ∧
      (after = [] ∨ after = [(encodingKey, utf8Label)]) := by
  obtain ⟨-, keyed⟩ := kind_ofDirective declared
  obtain rfl := profile_ofDirective declared
  obtain ⟨attributes, encoded, versioned⟩ := ofDirective_cases declared
  obtain ⟨-, -, ended⟩ := withEncoding_cases encoded
  have behind : ∃ after, attributes = directive.attributes ++ after ∧
      (after = [] ∨ after = [(encodingKey, utf8Label)]) := by
    rcases ended with same | ⟨-, added⟩
    · exact ⟨[], by rw [same, List.append_nil], .inl rfl⟩
    · exact ⟨_, added, .inr rfl⟩
  obtain ⟨after, rfl, added⟩ := behind
  rw [versioned, keyed]
  rcases withVersion_cases .xml (directive.attributes ++ after) with same | ⟨-, first⟩
  · exact ⟨[], after, same, .inl rfl, added⟩
  · exact ⟨_, after, by rw [first, List.append_assoc], .inr rfl, added⟩

theorem ofDirective_again (declared : ofDirective number directive = .ok (header, profile))
    (again : Nat) :
    ofDirective again ⟨header.kind, header.attributes⟩ = .ok (header, profile) := by
  obtain ⟨kind, keyed⟩ := kind_ofDirective declared
  obtain ⟨⟨version, versioned⟩, encoded, folded⟩ := find?_ofDirective declared
  obtain rfl := profile_ofDirective declared
  have known : Profile.ofKind? header.kind = some .xml := by
    rw [kind]
    rfl
  simp only [ofDirective, known, withEncoding_of_find? encoded folded,
    withVersion_of_find? versioned, ← kind, ← keyed]

theorem writable_ofDirective (declared : ofDirective number directive = .ok (header, profile))
    (writable : Writable directive.attributes) : Writable header.attributes := by
  obtain ⟨before, after, parts, first, last⟩ := attributes_ofDirective declared
  obtain ⟨-, keyed⟩ := kind_ofDirective declared
  obtain rfl := profile_ofDirective declared
  have added : Writable [(Profile.xml.versionKey, Profile.xml.defaultVersion)] ∧
      Writable [(encodingKey, utf8Label)] := by
    simp only [Writable, List.forall_mem_singleton]
    decide
  rw [parts, Writable, List.forall_mem_append, List.forall_mem_append]
  refine ⟨⟨?_, writable⟩, ?_⟩
  · rcases first with rfl | rfl
    · exact List.forall_mem_nil _
    · rw [keyed]
      exact added.1
  · rcases last with rfl | rfl
    · exact List.forall_mem_nil _
    · exact added.2

/-- A header names a version and an encoding, and keeps what its directive names between them.  It
declares itself, and the line that it writes is read as itself unless a value needs a backslash. -/
theorem ofDirective_declares_itself
    (declared : ofDirective number directive = .ok (header, profile)) :
    (∃ version, header.version = some version) ∧
      (∃ encoding, (encodingKey, encoding) ∈ header.attributes) ∧
      (∃ before after, header.attributes = before ++ directive.attributes ++ after ∧
        (before = [] ∨ before = [(header.versionKey, profile.defaultVersion)]) ∧
        (after = [] ∨ after = [(encodingKey, utf8Label)])) ∧
      (∀ again, ofDirective again ⟨header.kind, header.attributes⟩ = .ok (header, profile)) ∧
      ∀ origin line, Directive.parse origin line = .ok directive →
        (∀ entry ∈ directive.attributes, '\x22' ∉ entry.2 ∧ '\\' ∉ entry.2) →
        ∃ body, header.render = "<?".toList ++ body ++ "?>".toList ∧
          ∀ again, Directive.parse again ("!!! ".toList ++ body) =
            .ok ⟨header.kind, header.attributes⟩ := by
  obtain ⟨kind, keyed⟩ := kind_ofDirective declared
  obtain ⟨versioned, encoded, -⟩ := find?_ofDirective declared
  refine ⟨?_, ⟨_, mem_of_find? encoded⟩, attributes_ofDirective declared,
    ofDirective_again declared, ?_⟩
  · rw [version, keyed]
    exact versioned
  · intro origin line parsed plain
    have writable : Writable header.attributes := by
      apply writable_ofDirective declared
      intro entry member
      exact ⟨Directive.isNameWord_of_parse parsed entry member, plain entry member⟩
    have named : isNameWord header.kind = true := by
      obtain rfl := profile_ofDirective declared
      rw [kind]
      decide
    refine ⟨header.kind ++ header.attributes.flatMap fun entry => assignment entry.1 entry.2, ?_, ?_⟩
    · simp only [render, List.append_assoc]
    · intro again
      exact Directive.parse_assignments again named writable

end Declared

/-- A kind in capitals, a name with a colon and a value in single quotes. -/
theorem ofDirective_declares_itself_colon :
    ∃ directive header,
      Directive.parse 1 "!!! XML a:b='c d' encoding=\x22UTF_8\x22".toList = .ok directive ∧
        ofDirective 1 directive = .ok (header, .xml) ∧
        header.render = "<?xml version=\x221.0\x22 a:b=\x22c d\x22 encoding=\x22UTF_8\x22?>".toList ∧
        ofDirective 2 ⟨header.kind, header.attributes⟩ = .ok (header, .xml) ∧
        Directive.parse 2 "!!! xml version=\x221.0\x22 a:b=\x22c d\x22 encoding=\x22UTF_8\x22".toList =
          .ok ⟨header.kind, header.attributes⟩ := by
  let given : List (Text × Text) :=
    [("a:b".toList, "c d".toList), ("encoding".toList, "UTF_8".toList)]
  let header : Header := ⟨"xml".toList, "version".toList, "UTF_8".toList,
    ("version".toList, "1.0".toList) :: given⟩
  have parsed : Directive.parse 1 "!!! XML a:b='c d' encoding=\x22UTF_8\x22".toList =
      .ok ⟨"XML".toList, given⟩ := by decide +kernel
  have declared : ofDirective 1 ⟨"XML".toList, given⟩ = .ok (header, .xml) := rfl
  have rendered : header.render =
      "<?".toList ++ "xml version=\x221.0\x22 a:b=\x22c d\x22 encoding=\x22UTF_8\x22".toList ++
        "?>".toList := by decide
  have plain : ∀ entry ∈ given, '\x22' ∉ entry.2 ∧ '\\' ∉ entry.2 := by decide
  obtain ⟨-, -, -, again, reread⟩ := ofDirective_declares_itself declared
  obtain ⟨body, written, reads⟩ := reread 1 _ parsed plain
  have same := List.append_cancel_left (List.append_cancel_right (rendered.symm.trans written))
  refine ⟨_, header, parsed, declared, rendered, again 2, ?_⟩
  have whole := reads 2
  rw [← same] at whole
  exact whole

end Header

end Markup
end Stencil
