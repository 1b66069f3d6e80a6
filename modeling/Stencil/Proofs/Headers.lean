import Mathlib.Data.List.Nodup
import Stencil.Proofs.Guarded

/-! What a header declares, compared with the line it is declared on.

A missing version is put in front and a missing encoding at the end, so a header names what its
line names and no name more often.  The first encoding is UTF-8.  A name that the line repeats is
repeated by the header, and a second encoding is not looked at. -/

namespace Stencil
namespace Markup

/-! ### The names on a line -/

namespace Directive

/-- The names to which the words of a line assign a value. -/
def assigned : List Word → List Text
  | [] => []
  | .name name :: .equals :: rest => name :: assigned rest
  | _ :: rest => assigned rest

theorem assigned_value {word : Word} {value : Text} (rest : List Word)
    (read : valueOf word = .ok value) : assigned (word :: rest) = assigned rest := by
  cases word with
  | quoted quote inner => rfl
  | marker => contradiction
  | equals => contradiction
  | name text => contradiction
  | junk text => contradiction

theorem names_attributesOf {words : List Word} {attributes : List (Text × Text)}
    (read : attributesOf words = .ok attributes) :
    attributes.map Prod.fst = assigned words := by
  fun_induction attributesOf words generalizing attributes with
  | case1 =>
      cases read
      rfl
  | case2 name word rest flaw failed => contradiction
  | case3 name word rest value valued flaw failed ih => contradiction
  | case4 name word rest value valued later decoded ih =>
      cases read
      rw [assigned, assigned_value rest valued, ← ih decoded]
      rfl
  | case5 name => contradiction
  | case6 name rest unassigned unfinished => contradiction
  | case7 word rest unnamed => contradiction

theorem names_ofWords {words : List Word} {directive : Directive}
    (read : ofWords words = .ok directive) :
    directive.attributes.map Prod.fst = assigned words := by
  have kept {kind : Text} {others : List Word}
      (made : (attributesOf others).map (fun attributes => Directive.mk kind attributes) =
        .ok directive) :
      directive.attributes.map Prod.fst = assigned others := by
    cases listed : attributesOf others with
    | error flaw => simp [listed, Except.map] at made
    | ok attributes =>
        rw [listed] at made
        cases made
        exact names_attributesOf listed
  unfold ofWords at read
  split at read
  · have names := kept read
    exact names
  · rename_i name rest unassigned
    have apart : assigned (.marker :: .name name :: rest) = assigned rest := by
      rw [assigned, assigned]
      · rintro _ others - same
        exact unassigned others same
      · simp
    rw [apart]
    exact kept read
  · have names := kept read
    exact names
  · contradiction

theorem names_parse {number : Nat} {line : Text} {directive : Directive}
    (parsed : parse number line = .ok directive) :
    directive.attributes.map Prod.fst = assigned (words line) := by
  unfold parse at parsed
  split at parsed
  · rename_i found read
    cases parsed
    exact names_ofWords read
  · contradiction

end Directive

namespace Header

/-! ### The first attribute with a name -/

theorem find?_eq_none_iff {name : Text} {attributes : List (Text × Text)} :
    find? name attributes = none ↔ name ∉ attributes.map Prod.fst := by
  rw [find?, Option.map_eq_none_iff, List.find?_eq_none]
  simp only [decide_eq_true_eq, List.mem_map, not_exists, not_and]

theorem find?_append (name : Text) (first second : List (Text × Text)) :
    find? name (first ++ second) = (find? name first).or (find? name second) := by
  rw [find?, List.find?_append, Option.map_or]
  rfl

theorem find?_of_nodup {entry : Text × Text} {attributes : List (Text × Text)}
    (distinct : (attributes.map Prod.fst).Nodup) (member : entry ∈ attributes) :
    find? entry.1 attributes = some entry.2 := by
  induction attributes with
  | nil => contradiction
  | cons first others ih =>
      rw [List.map_cons, List.nodup_cons] at distinct
      rcases List.mem_cons.mp member with rfl | later
      · simp [find?]
      · have apart : first.1 ≠ entry.1 := by
          intro same
          exact distinct.1 (same ▸ List.mem_map_of_mem later)
        have found := ih distinct.2 later
        simpa [find?, apart] using found

def DeclaresUtf8 (attributes : List (Text × Text)) : Prop :=
  ∀ entry ∈ attributes, entry.1 = encodingKey → Encoding.foldLabel entry.2 = "utf8".toList

theorem declaresUtf8_of_nodup {attributes : List (Text × Text)} {encoding : Text}
    (distinct : (attributes.map Prod.fst).Nodup)
    (first : find? encodingKey attributes = some encoding)
    (folded : Encoding.foldLabel encoding = "utf8".toList) : DeclaresUtf8 attributes := by
  intro entry member named
  have found := find?_of_nodup distinct member
  rw [named, first] at found
  cases found
  exact folded

/-! ### Version and encoding -/

theorem withEncoding_cases {given attributes : List (Text × Text)} {encoding : Text}
    (declared : withEncoding given = .ok (encoding, attributes)) :
    Encoding.foldLabel encoding = "utf8".toList ∧
      find? encodingKey attributes = some encoding ∧
        (attributes = given ∨
          encodingKey ∉ given.map Prod.fst ∧ attributes = given ++ [(encodingKey, utf8Label)]) := by
  unfold withEncoding at declared
  split at declared
  · rename_i missing
    cases declared
    refine ⟨by decide, ?_, .inr ⟨find?_eq_none_iff.mp missing, rfl⟩⟩
    rw [find?_append, missing]
    rfl
  · rename_i value found
    split at declared
    · rename_i folded
      cases declared
      exact ⟨folded, found, .inl rfl⟩
    · contradiction

theorem withVersion_cases (profile : Profile) (attributes : List (Text × Text)) :
    withVersion profile attributes = attributes ∨
      profile.versionKey ∉ attributes.map Prod.fst ∧
        withVersion profile attributes =
          [(profile.versionKey, profile.defaultVersion)] ++ attributes := by
  unfold withVersion
  split
  · exact .inl rfl
  · rename_i missing
    exact .inr ⟨find?_eq_none_iff.mp missing, rfl⟩

theorem nodup_withEncoding {given attributes : List (Text × Text)} {encoding : Text}
    (declared : withEncoding given = .ok (encoding, attributes)) :
    (attributes.map Prod.fst).Nodup ↔ (given.map Prod.fst).Nodup := by
  obtain ⟨-, -, rfl | ⟨missing, rfl⟩⟩ := withEncoding_cases declared
  · rfl
  · rw [List.map_append, List.map_singleton, List.nodup_append_comm, List.singleton_append,
      List.nodup_cons]
    exact and_iff_right missing

theorem nodup_withVersion (profile : Profile) (attributes : List (Text × Text)) :
    ((withVersion profile attributes).map Prod.fst).Nodup ↔ (attributes.map Prod.fst).Nodup := by
  rcases withVersion_cases profile attributes with same | ⟨missing, added⟩
  · rw [same]
  · rw [added, List.singleton_append, List.map_cons, List.nodup_cons]
    exact and_iff_right missing

theorem find?_withVersion {profile : Profile} {name : Text} (apart : profile.versionKey ≠ name)
    (attributes : List (Text × Text)) :
    find? name (withVersion profile attributes) = find? name attributes := by
  rcases withVersion_cases profile attributes with same | ⟨-, added⟩
  · rw [same]
  · rw [added, find?_append]
    simp [find?, apart]

theorem declaresUtf8_append {first second : List (Text × Text)} :
    DeclaresUtf8 (first ++ second) ↔ DeclaresUtf8 first ∧ DeclaresUtf8 second :=
  List.forall_mem_append

theorem declaresUtf8_withEncoding {given attributes : List (Text × Text)} {encoding : Text}
    (declared : withEncoding given = .ok (encoding, attributes)) :
    DeclaresUtf8 attributes ↔ DeclaresUtf8 given := by
  obtain ⟨-, -, rfl | ⟨-, rfl⟩⟩ := withEncoding_cases declared
  · rfl
  · have label : DeclaresUtf8 [(encodingKey, utf8Label)] := by
      simp only [DeclaresUtf8, List.forall_mem_singleton]
      decide
    rw [declaresUtf8_append]
    exact and_iff_left label

theorem declaresUtf8_withVersion {profile : Profile} (apart : profile.versionKey ≠ encodingKey)
    (attributes : List (Text × Text)) :
    DeclaresUtf8 (withVersion profile attributes) ↔ DeclaresUtf8 attributes := by
  rcases withVersion_cases profile attributes with same | ⟨-, added⟩
  · rw [same]
  · have version : DeclaresUtf8 [(profile.versionKey, profile.defaultVersion)] := by
      simp [DeclaresUtf8, apart]
    rw [added, declaresUtf8_append]
    exact and_iff_right version

/-- The attributes of a header are those of its directive, after a version if that names none and
before an encoding if that names none. -/
theorem ofDirective_cases {number : Nat} {directive : Directive} {header : Header}
    {profile : Profile} (declared : ofDirective number directive = .ok (header, profile)) :
    ∃ attributes, withEncoding directive.attributes = .ok (header.encoding, attributes) ∧
      header.attributes = withVersion .xml attributes := by
  obtain rfl := profile_ofDirective declared
  unfold ofDirective at declared
  split at declared
  · contradiction
  · split at declared
    · contradiction
    · rename_i encoded
      cases declared
      exact ⟨_, encoded, rfl⟩

/-- A header has each name once exactly if its line assigns each name once, and declares only
UTF-8 exactly if its line does, as every line does that assigns each name once.  Its own encoding
is UTF-8 and the first that it declares. -/
theorem ofDirective_names_once_iff {number : Nat} {line : Text} {directive : Directive}
    {header : Header} {profile : Profile} (parsed : Directive.parse number line = .ok directive)
    (declared : ofDirective number directive = .ok (header, profile)) :
    ((header.attributes.map Prod.fst).Nodup ↔
        (Directive.assigned (Directive.words line)).Nodup) ∧
      (DeclaresUtf8 header.attributes ↔ DeclaresUtf8 directive.attributes) ∧
      ((Directive.assigned (Directive.words line)).Nodup → DeclaresUtf8 header.attributes) ∧
      find? encodingKey header.attributes = some header.encoding ∧
      Encoding.foldLabel header.encoding = "utf8".toList := by
  obtain ⟨attributes, encoded, versioned⟩ := ofDirective_cases declared
  obtain ⟨folded, first, -⟩ := withEncoding_cases encoded
  have names : (header.attributes.map Prod.fst).Nodup ↔
      (Directive.assigned (Directive.words line)).Nodup := by
    rw [← Directive.names_parse parsed, ← nodup_withEncoding encoded, versioned]
    exact nodup_withVersion .xml attributes
  have leading : find? encodingKey header.attributes = some header.encoding := by
    rw [versioned, find?_withVersion (by decide)]
    exact first
  refine ⟨names, ?_, ?_, leading, folded⟩
  · rw [versioned, declaresUtf8_withVersion (by decide), declaresUtf8_withEncoding encoded]
  · intro distinct
    exact declaresUtf8_of_nodup (names.mpr distinct) leading folded

/-- Names that differ in their case are different names, and only the lower one declares an
encoding. -/
theorem ofDirective_names_once_cased :
    ∃ directive header,
      Directive.parse 1 "!!! XML Encoding=\x22latin-1\x22 encoding=\x22UTF_8\x22".toList =
          .ok directive ∧
        ofDirective 1 directive = .ok (header, .xml) ∧
        (header.attributes.map Prod.fst).Nodup ∧ DeclaresUtf8 header.attributes := by
  have parsed : Directive.parse 1
      "!!! XML Encoding=\x22latin-1\x22 encoding=\x22UTF_8\x22".toList =
        .ok ⟨"XML".toList, [("Encoding".toList, "latin-1".toList),
          ("encoding".toList, "UTF_8".toList)]⟩ := by
    decide +kernel
  have declared : ofDirective 1 ⟨"XML".toList, [("Encoding".toList, "latin-1".toList),
      ("encoding".toList, "UTF_8".toList)]⟩ =
        .ok (⟨"xml".toList, "version".toList, "UTF_8".toList, [("version".toList, "1.0".toList),
          ("Encoding".toList, "latin-1".toList), ("encoding".toList, "UTF_8".toList)]⟩, .xml) :=
    rfl
  have distinct : (Directive.assigned (Directive.words
      "!!! XML Encoding=\x22latin-1\x22 encoding=\x22UTF_8\x22".toList)).Nodup := by
    decide +kernel
  obtain ⟨names, -, once, -, -⟩ := ofDirective_names_once_iff parsed declared
  exact ⟨_, _, parsed, declared, names.mpr distinct, once distinct⟩

/-- A line may declare a second encoding, which is neither refused nor dropped. -/
theorem ofDirective_second_encoding :
    ∃ directive header,
      Directive.parse 1 "!!! xml encoding=\x22utf-8\x22 encoding=\x22latin-1\x22".toList =
          .ok directive ∧
        ofDirective 1 directive = .ok (header, .xml) ∧
        ¬(header.attributes.map Prod.fst).Nodup ∧ ¬DeclaresUtf8 header.attributes ∧
        header.render =
          "<?xml version=\x221.0\x22 encoding=\x22utf-8\x22 encoding=\x22latin-1\x22?>".toList := by
  refine ⟨⟨"xml".toList, [("encoding".toList, "utf-8".toList),
      ("encoding".toList, "latin-1".toList)]⟩,
    ⟨"xml".toList, "version".toList, "utf-8".toList, [("version".toList, "1.0".toList),
      ("encoding".toList, "utf-8".toList), ("encoding".toList, "latin-1".toList)]⟩,
    by decide +kernel, rfl, by decide, ?_, by decide⟩
  simp only [DeclaresUtf8]
  decide

end Header

end Markup
end Stencil
