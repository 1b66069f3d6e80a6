import Stencil.Proofs.Sealing

/-! Which attribute lists can be sealed, and what they are sealed as.

Repeated names are looked for after the literal classes were joined.  So `class` alone may be
given several times, and only by literal values; a class that is given by code must be the only
one, wherever it stands.  What is sealed has the names in the order in which they are first
given. -/

namespace Stencil

/-! ### Escaping joined values -/

theorem Markup.escapeAttribute_intercalate (values : List Text) :
    escapeAttribute ([' '].intercalate values) = [' '].intercalate (values.map escapeAttribute) := by
  induction values with
  | nil => rfl
  | cons value others ih =>
      cases others with
      | nil => simp
      | cons second others =>
          have space : escapeAttribute [' '] = [' '] := by decide
          rw [List.map_cons, List.map_cons, List.intercalate_cons_cons, List.intercalate_cons_cons,
            escapeAttribute_append, escapeAttribute_append, ih, space]
          rfl

namespace PendingElement

/-! ### Classes among the attributes -/

def classes (given : List Attribute) : List Text :=
  given.filterMap literalClass?

def codeClasses (given : List Attribute) : Nat :=
  given.countP fun entry => entry.name == classKey && (literalClass? entry).isNone

theorem literalClass?_eq_some_iff {entry : Attribute} {text : Text} :
    literalClass? entry = some text ↔ entry.name = classKey ∧ entry.value = .literal text := by
  obtain ⟨name, value⟩ := entry
  cases value with
  | code code => simp [literalClass?]
  | literal literal =>
      by_cases named : name = classKey
      · simp [literalClass?, named]
      · simp [literalClass?, named]

theorem literalClass?_of_ne {entry : Attribute} (other : entry.name ≠ classKey) :
    literalClass? entry = none := by
  cases found : literalClass? entry with
  | none => rfl
  | some text => exact absurd (literalClass?_eq_some_iff.mp found).1 other

theorem classes_of_none {entry : Attribute} (others : List Attribute)
    (plain : literalClass? entry = none) : classes (entry :: others) = classes others :=
  List.filterMap_cons_none plain

theorem classes_of_some {entry : Attribute} {text : Text} (others : List Attribute)
    (found : literalClass? entry = some text) :
    classes (entry :: others) = text :: classes others :=
  List.filterMap_cons_some found

theorem codeClasses_cons (entry : Attribute) (others : List Attribute) :
    codeClasses (entry :: others) =
      codeClasses others + if entry.name == classKey && (literalClass? entry).isNone then 1 else 0 :=
  List.countP_cons

theorem codeClasses_eq_zero_iff {given : List Attribute} :
    codeClasses given = 0 ↔ ∀ entry ∈ given, entry.name = classKey → IsLiteral entry := by
  rw [codeClasses, List.countP_eq_zero]
  apply forall₂_congr
  intro entry member
  rw [Bool.and_eq_true, beq_iff_eq, not_and]
  apply forall_congr'
  intro named
  cases found : literalClass? entry with
  | none =>
      simp only [Option.isNone_none, not_true_eq_false, false_iff]
      rintro ⟨text, literal⟩
      rw [literalClass?_eq_some_iff.mpr ⟨named, literal⟩] at found
      contradiction
  | some text =>
      simp only [Option.isNone_some, Bool.false_eq_true, not_false_eq_true, true_iff]
      exact ⟨text, (literalClass?_eq_some_iff.mp found).2⟩

theorem count_classKey (given : List Attribute) :
    (given.map Attribute.name).count classKey = codeClasses given + (classes given).length := by
  induction given with
  | nil => rfl
  | cons entry others ih =>
      rw [List.map_cons, List.count_cons, ih, codeClasses_cons]
      cases found : literalClass? entry with
      | none =>
          rw [classes_of_none others found, Option.isNone_none, Bool.and_true]
          omega
      | some text =>
          have named := (literalClass?_eq_some_iff.mp found).1
          rw [classes_of_some others found, Option.isNone_some, Bool.and_false, named, beq_self_eq_true,
            List.length_cons]
          rfl

/-! ### Names after the classes were joined -/

section Joined

variable {given : List Attribute}

theorem joinClasses_of_none {entry : Attribute} (others : List Attribute)
    (plain : literalClass? entry = none) :
    joinClasses (entry :: others) = entry :: joinClasses others := by
  rw [joinClasses, plain]

theorem joinClasses_of_some {entry : Attribute} {text : Text} (others : List Attribute)
    (found : literalClass? entry = some text) :
    joinClasses (entry :: others) =
      ⟨classKey, .literal ([' '].intercalate (text :: classes others))⟩ ::
        others.filter fun other => (literalClass? other).isNone := by
  rw [joinClasses, found, ← (literalClass?_eq_some_iff.mp found).1]
  rfl

theorem count_joinClasses_of_ne {name : Text} (other : name ≠ classKey) :
    ((joinClasses given).map Attribute.name).count name =
      (given.map Attribute.name).count name := by
  induction given with
  | nil => rfl
  | cons entry others ih =>
      cases found : literalClass? entry with
      | none =>
          rw [joinClasses_of_none others found, List.map_cons, List.count_cons, ih, List.map_cons,
            List.count_cons]
      | some text =>
          have named := (literalClass?_eq_some_iff.mp found).1
          rw [joinClasses_of_some others found, List.map_cons, List.map_cons, named,
            List.count_cons_of_ne (Ne.symm other), List.count_cons_of_ne (Ne.symm other),
            List.count_eq_countP, List.count_eq_countP, List.countP_map, List.countP_map,
            List.countP_filter]
          apply List.countP_congr
          intro later member
          simp only [Function.comp_apply, Bool.and_eq_true, beq_iff_eq, and_iff_left_iff_imp]
          rintro rfl
          rw [literalClass?_of_ne other]
          rfl

theorem count_joinClasses_classKey (given : List Attribute) :
    ((joinClasses given).map Attribute.name).count classKey =
      codeClasses given + if classes given = [] then 0 else 1 := by
  induction given with
  | nil => rfl
  | cons entry others ih =>
      cases found : literalClass? entry with
      | none =>
          rw [joinClasses_of_none others found, List.map_cons, List.count_cons, ih, codeClasses_cons,
            classes_of_none others found, found, Option.isNone_none, Bool.and_true]
          omega
      | some text =>
          have kept : ((others.filter fun other => (literalClass? other).isNone).map
              Attribute.name).count classKey = codeClasses others := by
            rw [List.count_eq_countP, List.countP_map, List.countP_filter]
            rfl
          rw [joinClasses_of_some others found, List.map_cons, List.count_cons_self, kept,
            codeClasses_cons, classes_of_some others found, found, Option.isNone_some, Bool.and_false]
          rfl

/-- No name is lost, and none is given more often. -/
theorem count_joinClasses_bounds (given : List Attribute) (name : Text) :
    ((joinClasses given).map Attribute.name).count name ≤ (given.map Attribute.name).count name ∧
      (0 < (given.map Attribute.name).count name →
        0 < ((joinClasses given).map Attribute.name).count name) := by
  by_cases same : name = classKey
  · subst same
    rw [count_joinClasses_classKey, count_classKey]
    cases classes given with
    | nil => exact ⟨Nat.le_refl _, id⟩
    | cons text others =>
        simp only [reduceCtorEq, if_false, List.length_cons]
        omega
  · rw [count_joinClasses_of_ne same]
    exact ⟨Nat.le_refl _, id⟩

theorem mem_names_joinClasses {name : Text} (member : name ∈ given.map Attribute.name) :
    name ∈ (joinClasses given).map Attribute.name :=
  List.count_pos_iff.mp ((count_joinClasses_bounds given name).2 (List.count_pos_iff.mpr member))

theorem filter_of_not_mem {name : Text} {names : List Text} (fresh : name ∉ names) :
    (names.filter fun other => !other == name) = names := by
  apply List.filter_eq_self.mpr
  intro other member
  simp only [Bool.not_eq_true', beq_eq_false_iff_ne]
  rintro rfl
  exact fresh member

theorem eraseDups_of_nodup {names : List Text} (distinct : names.Nodup) :
    names.eraseDups = names := by
  induction names with
  | nil => rfl
  | cons name others ih =>
      obtain ⟨fresh, distinct⟩ := List.nodup_cons.mp distinct
      rw [List.eraseDups_cons, filter_of_not_mem fresh, ih distinct]

/-- If joining the classes leaves no name twice, it leaves each where it is first given. -/
theorem names_joinClasses (distinct : ((joinClasses given).map Attribute.name).Nodup) :
    (joinClasses given).map Attribute.name = (given.map Attribute.name).eraseDups := by
  induction given with
  | nil => rfl
  | cons entry others ih =>
      cases found : literalClass? entry with
      | none =>
          rw [joinClasses_of_none others found, List.map_cons] at distinct ⊢
          obtain ⟨fresh, distinct⟩ := List.nodup_cons.mp distinct
          have unnamed : entry.name ∉ others.map Attribute.name :=
            fun member => fresh (mem_names_joinClasses member)
          rw [List.map_cons, List.eraseDups_cons, filter_of_not_mem unnamed, ih distinct]
      | some text =>
          have named := (literalClass?_eq_some_iff.mp found).1
          rw [joinClasses_of_some others found, List.map_cons] at distinct ⊢
          obtain ⟨fresh, distinct⟩ := List.nodup_cons.mp distinct
          -- the other classes are literal, so that all of them are dropped
          have dropped : (others.filter fun other => (literalClass? other).isNone) =
              others.filter fun other => !other.name == classKey := by
            apply List.filter_congr
            intro other member
            cases literal : literalClass? other with
            | none =>
                have left : other ∈ others.filter fun other => (literalClass? other).isNone :=
                  List.mem_filter.mpr ⟨member, by rw [literal]; rfl⟩
                have apart : other.name ≠ classKey := by
                  intro same
                  exact fresh (List.mem_map.mpr ⟨other, left, same⟩)
                simp [apart]
            | some value => simp [(literalClass?_eq_some_iff.mp literal).1]
          have names : ((others.map Attribute.name).filter fun name => !name == classKey) =
              (others.filter fun other => (literalClass? other).isNone).map Attribute.name := by
            rw [dropped, List.filter_map]
            rfl
          rw [List.map_cons, List.eraseDups_cons, named, names, eraseDups_of_nodup distinct]

end Joined

/-! ### Values after the classes were joined -/

theorem mem_joinClasses_of_none {entry : Attribute} {given : List Attribute}
    (plain : literalClass? entry = none) (member : entry ∈ given) : entry ∈ joinClasses given := by
  induction given with
  | nil => contradiction
  | cons first others ih =>
      cases found : literalClass? first with
      | none =>
          rw [joinClasses_of_none others found]
          rcases List.mem_cons.mp member with rfl | later
          · exact List.mem_cons_self
          · exact List.mem_cons_of_mem _ (ih later)
      | some text =>
          rw [joinClasses_of_some others found]
          rcases List.mem_cons.mp member with rfl | later
          · rw [plain] at found
            contradiction
          · apply List.mem_cons_of_mem
            exact List.mem_filter.mpr ⟨later, by rw [plain]; rfl⟩

theorem mem_joinClasses_classes {given : List Attribute} (literal : classes given ≠ []) :
    ⟨classKey, .literal ([' '].intercalate (classes given))⟩ ∈ joinClasses given := by
  induction given with
  | nil => contradiction
  | cons first others ih =>
      cases found : literalClass? first with
      | none =>
          rw [classes_of_none others found] at literal ⊢
          rw [joinClasses_of_none others found]
          exact List.mem_cons_of_mem _ (ih literal)
      | some text =>
          rw [classes_of_some others found, joinClasses_of_some others found]
          exact List.mem_cons_self

/-! ### Sealing -/

/-- Every other name is given at most once, and `class` by literal values only or just once. -/
def Sealable (given : List Attribute) : Prop :=
  (∀ name, name ≠ classKey → (given.map Attribute.name).count name ≤ 1) ∧
    ((∀ entry ∈ given, entry.name = classKey → IsLiteral entry) ∨
      (given.map Attribute.name).count classKey = 1)

theorem nodup_joinClasses_iff {given : List Attribute} :
    ((joinClasses given).map Attribute.name).Nodup ↔ Sealable given := by
  have classOnce : ((joinClasses given).map Attribute.name).count classKey ≤ 1 ↔
      (∀ entry ∈ given, entry.name = classKey → IsLiteral entry) ∨
        (given.map Attribute.name).count classKey = 1 := by
    rw [count_joinClasses_classKey, count_classKey, ← codeClasses_eq_zero_iff]
    cases classes given with
    | nil =>
        simp only [if_true, List.length_nil]
        omega
    | cons text others =>
        simp only [reduceCtorEq, if_false, List.length_cons]
        omega
  rw [List.nodup_iff_count, Sealable, ← classOnce]
  constructor
  · intro once
    refine ⟨fun name other => ?_, once classKey⟩
    rw [← count_joinClasses_of_ne other]
    exact once name
  · rintro ⟨others, classes⟩ name
    by_cases same : name = classKey
    · rw [same]
      exact classes
    · rw [count_joinClasses_of_ne same]
      exact others name same

/-- What a list is sealed as.  Each name stands where it is first given.  Code is kept as it is,
and a literal value is escaped; the literal values of `class` are joined before that. -/
structure SealedAs (profile : Markup.Profile) (given attributes : List Attribute) : Prop where
  names : attributes.map Attribute.name = (given.map Attribute.name).eraseDups
  distinct : (attributes.map Attribute.name).Nodup
  code : ∀ name code, ⟨name, .code code⟩ ∈ given → ⟨name, .code code⟩ ∈ attributes
  literal : ∀ name text, ⟨name, .literal text⟩ ∈ given → name ≠ classKey →
    ⟨name, .literal (profile.escapeAttribute text)⟩ ∈ attributes
  joined : classes given ≠ [] →
    ⟨classKey, .literal (profile.escapeAttribute ([' '].intercalate (classes given)))⟩ ∈ attributes

theorem sealedAs_joinClasses (profile : Markup.Profile) {given : List Attribute}
    (distinct : ((joinClasses given).map Attribute.name).Nodup) :
    SealedAs profile given ((joinClasses given).map (escapeLiteral profile)) := by
  have sameNames : ((joinClasses given).map (escapeLiteral profile)).map Attribute.name =
      (joinClasses given).map Attribute.name := by
    rw [List.map_map]
    exact List.map_congr_left fun entry _ => name_escapeLiteral profile entry
  constructor
  · rw [sameNames]
    exact names_joinClasses distinct
  · rw [sameNames]
    exact distinct
  · intro name code member
    exact List.mem_map.mpr ⟨_, mem_joinClasses_of_none rfl member, rfl⟩
  · intro name text member other
    exact List.mem_map.mpr
      ⟨_, mem_joinClasses_of_none (literalClass?_of_ne other) member, rfl⟩
  · intro literal
    exact List.mem_map.mpr ⟨_, mem_joinClasses_classes literal, rfl⟩

theorem count_of_firstRepeated {seen : List Text} {entries : List Attribute} {name : Text}
    (repeated : firstRepeated seen entries = some name) :
    1 < (seen ++ entries.map Attribute.name).count name := by
  induction entries generalizing seen with
  | nil => contradiction
  | cons entry others ih =>
      unfold firstRepeated at repeated
      split at repeated
      · rename_i before
        cases repeated
        have counted := List.count_pos_iff.mpr before
        rw [List.count_append, List.map_cons, List.count_cons_self]
        omega
      · have counted := ih repeated
        rw [List.cons_append, List.count_cons, List.count_append] at counted
        rw [List.count_append, List.map_cons, List.count_cons]
        omega

section Outcome

variable (profile : Markup.Profile) {element : PendingElement}

theorem sealed_of_sealable (sealable : Sealable element.attributes) :
    element.sealed profile = .ok ((joinClasses element.attributes).map (escapeLiteral profile)) := by
  have distinct := nodup_joinClasses_iff.mpr sealable
  have unrepeated : firstRepeated [] (joinClasses element.attributes) = none :=
    (firstRepeated_eq_none_iff [] _).mpr ⟨distinct, fun _ _ => List.not_mem_nil⟩
  simp only [PendingElement.sealed, unrepeated]

theorem sealed_of_not_sealable (unsealable : ¬Sealable element.attributes) :
    ∃ name, element.sealed profile =
        .error (.parse element.line (.duplicateAttribute name element.tag)) ∧
      1 < (element.attributes.map Attribute.name).count name := by
  cases found : firstRepeated [] (joinClasses element.attributes) with
  | none =>
      have distinct := ((firstRepeated_eq_none_iff [] _).mp found).1
      exact absurd (nodup_joinClasses_iff.mp distinct) unsealable
  | some name =>
      refine ⟨name, by simp only [PendingElement.sealed, found], ?_⟩
      have twice := count_of_firstRepeated found
      rw [List.nil_append] at twice
      exact Nat.lt_of_lt_of_le twice (count_joinClasses_bounds _ name).1

end Outcome

/-- A list is sealed exactly if it is sealable, and as it is to be sealed; otherwise the fault is
reported for the line of the element and names an attribute that was given twice.  Escaping the
joined classes is joining the escaped ones. -/
theorem sealed_iff_sealable (profile : Markup.Profile) (element : PendingElement) :
    ((∃ attributes, element.sealed profile = .ok attributes) ↔ Sealable element.attributes) ∧
      (∀ attributes, element.sealed profile = .ok attributes →
        SealedAs profile element.attributes attributes) ∧
      (∀ fault, element.sealed profile = .error fault →
        ∃ name, fault = .parse element.line (.duplicateAttribute name element.tag) ∧
          1 < (element.attributes.map Attribute.name).count name) ∧
      (profile ∈ Markup.Profile.all →
        profile.escapeAttribute ([' '].intercalate (classes element.attributes)) =
          [' '].intercalate ((classes element.attributes).map profile.escapeAttribute)) := by
  have registered : profile ∈ Markup.Profile.all →
      profile.escapeAttribute ([' '].intercalate (classes element.attributes)) =
        [' '].intercalate ((classes element.attributes).map profile.escapeAttribute) := by
    intro member
    obtain rfl : profile = .xml := List.mem_singleton.mp member
    exact Markup.escapeAttribute_intercalate _
  by_cases sealable : Sealable element.attributes
  · have complete := sealed_of_sealable profile sealable
    refine ⟨⟨fun _ => sealable, fun _ => ⟨_, complete⟩⟩, ?_, ?_, registered⟩
    · intro attributes same
      rw [complete] at same
      cases same
      exact sealedAs_joinClasses profile (nodup_joinClasses_iff.mpr sealable)
    · intro fault failed
      rw [complete] at failed
      contradiction
  · obtain ⟨name, failed, twice⟩ := sealed_of_not_sealable profile sealable
    refine ⟨⟨?_, fun given => absurd given sealable⟩, ?_, ?_, registered⟩
    · rintro ⟨attributes, complete⟩
      rw [failed] at complete
      contradiction
    · intro attributes complete
      rw [failed] at complete
      contradiction
    · intro fault same
      rw [failed] at same
      cases same
      exact ⟨name, rfl, twice⟩

/-- Classes with code between them are joined where the first one stands, and a class by code
behind them is refused. -/
theorem sealed_iff_sealable_classes :
    let given : List Attribute :=
      [⟨"class".toList, .literal "a&".toList⟩, ⟨"id".toList, .code "n".toList⟩,
        ⟨"class".toList, .literal "b".toList⟩]
    let sealed : List Attribute :=
      [⟨"class".toList, .literal "a&amp; b".toList⟩, ⟨"id".toList, .code "n".toList⟩]
    (PendingElement.mk "x".toList given false none 3).sealed .xml = .ok sealed ∧
      SealedAs .xml given sealed ∧
      ¬Sealable (given ++ [⟨"class".toList, .code "c".toList⟩]) := by
  intro given sealed
  have complete : (PendingElement.mk "x".toList given false none 3).sealed .xml = .ok sealed := rfl
  have failed : (PendingElement.mk "x".toList (given ++ [⟨"class".toList, .code "c".toList⟩]) false
      none 3).sealed .xml =
        .error (.parse 3 (.duplicateAttribute "class".toList "x".toList)) := rfl
  refine ⟨complete, (sealed_iff_sealable .xml _).2.1 _ complete, ?_⟩
  intro sealable
  obtain ⟨attributes, impossible⟩ := (sealed_iff_sealable .xml
    (.mk "x".toList (given ++ [⟨"class".toList, .code "c".toList⟩]) false none 3)).1.mpr sealable
  rw [failed] at impossible
  contradiction

end PendingElement

end Stencil
