import CallFrame.DebuggingEntry
import CallFrame.Proofs.FirstFaults
import Mathlib.Logic.Relation

/-!
# The location attribute of an entry

One attribute tells where the variable of an entry is: the first that has the name of a location.
If it stores an expression, in either of the two forms, then the location is the value of this
expression, and its fault if it has none. If it stores anything else, or if there is no such
attribute, the entry has no location, and no attribute behind it stands in.

No expression fails by saying that there is no location. A missing location and a broken one can be
told apart by the fault alone.

The attributes of other names have no part in this, and neither has anything behind the first
location attribute. No row of changes to them makes a difference.
-/

namespace CallFrame

theorem AttributeValue.expression?_eq_some_iff
    {value : AttributeValue} {bytes : Bytes} :
    value.expression? = some bytes ↔ value = .block bytes ∨ value = .expression bytes := by
  cases value <;> simp [expression?]

theorem Expression.evaluate_ne_noLocation
    (expression : Bytes) (cfa : UInt64) :
    evaluate expression cfa ≠ .error .noLocation := by
  intro h
  rw [evaluate_eq, map_eq_error_iff, ← firstFault_iff] at h
  cases h with
  | inside _ _ hfault =>
      cases hfault

namespace DebuggingEntry

/-- The value of the first attribute of this name. -/
def HasFirst (entry : DebuggingEntry) (name : UInt16) (value : AttributeValue) : Prop :=
  ∃ front back, entry.attributes = front ++ (name, value) :: back ∧
    ∀ attr ∈ front, attr.1 ≠ name

variable {entry : DebuggingEntry} {name : UInt16} {value : AttributeValue}

theorem attribute?_eq_some_iff :
    entry.attribute? name = some value ↔ entry.HasFirst name value := by
  simp only [attribute?, HasFirst, List.lookup_eq_some_iff, bne_iff_ne, ne_comm]

theorem attribute?_eq_none_iff :
    entry.attribute? name = none ↔ ∀ attr ∈ entry.attributes, attr.1 ≠ name := by
  simp only [attribute?, List.lookup_eq_none_iff, bne_iff_ne, ne_comm]

theorem location_of_attribute?
    (h : entry.attribute? locationAttribute = some value) {bytes : Bytes}
    (hbytes : value.expression? = some bytes) (cfa : UInt64) :
    entry.location cfa = Expression.evaluate bytes cfa := by
  rw [location, h, Option.bind_some, hbytes]

/-- An entry has no location exactly if no expression is found for it. -/
theorem location_eq_noLocation_iff
    (cfa : UInt64) :
    entry.location cfa = .error .noLocation ↔
      (entry.attribute? locationAttribute).bind AttributeValue.expression? = none := by
  rw [location]
  rcases (entry.attribute? locationAttribute).bind AttributeValue.expression? with _ | bytes
  · exact iff_of_true rfl rfl
  · exact iff_of_false (Expression.evaluate_ne_noLocation bytes cfa) (Option.some_ne_none bytes)

/-- A change of the attributes that leaves the first one of this name where it is found. -/
inductive Edit (name : UInt16) :
    List (UInt16 × AttributeValue) → List (UInt16 × AttributeValue) → Prop
  | insert {front back : List (UInt16 × AttributeValue)} {attr : UInt16 × AttributeValue}
      (hother : attr.1 ≠ name) :
      Edit name (front ++ back) (front ++ attr :: back)
  | remove {front back : List (UInt16 × AttributeValue)} {attr : UInt16 × AttributeValue}
      (hother : attr.1 ≠ name) :
      Edit name (front ++ attr :: back) (front ++ back)
  | exchange {front middle back : List (UInt16 × AttributeValue)}
      {first second : UInt16 × AttributeValue}
      (hfirst : first.1 ≠ name) (hsecond : second.1 ≠ name) :
      Edit name (front ++ first :: (middle ++ second :: back))
        (front ++ second :: (middle ++ first :: back))
  | replaceBehind {front : List (UInt16 × AttributeValue)} {value : AttributeValue}
      (back other : List (UInt16 × AttributeValue)) :
      Edit name (front ++ (name, value) :: back) (front ++ (name, value) :: other)

theorem lookup_cons_of_ne
    {attr : UInt16 × AttributeValue} (h : attr.1 ≠ name)
    (rest : List (UInt16 × AttributeValue)) :
    (attr :: rest).lookup name = rest.lookup name := by
  rw [List.lookup_cons, beq_false_of_ne h.symm]

variable {before after : List (UInt16 × AttributeValue)}

theorem Edit.lookup_eq
    (h : Edit name before after) :
    after.lookup name = before.lookup name := by
  cases h with
  | insert hother =>
      rw [List.lookup_append, List.lookup_append, lookup_cons_of_ne hother]
  | remove hother =>
      rw [List.lookup_append, List.lookup_append, lookup_cons_of_ne hother]
  | exchange hfirst hsecond =>
      simp only [List.lookup_append, lookup_cons_of_ne hfirst, lookup_cons_of_ne hsecond]
  | replaceBehind back other =>
      simp only [List.lookup_append, List.lookup_cons_self]

theorem lookup_eq_of_edits
    (h : Relation.ReflTransGen (Edit name) before after) :
    after.lookup name = before.lookup name := by
  induction h with
  | refl =>
      rfl
  | tail _ hlast ih =>
      rw [hlast.lookup_eq, ih]

/-- **The first location attribute.** If it stores an expression, in either form, the location is
what the expression evaluates to, faults included. There is no location exactly if there is no such
attribute or the first one stores something else. Edits of attributes with other names, and of
whatever is behind the first one, leave the location as it is. -/
theorem location_eq_first
    (entry : DebuggingEntry) :
    (∀ bytes, entry.HasFirst locationAttribute (.block bytes) ∨
        entry.HasFirst locationAttribute (.expression bytes) →
      ∀ cfa, entry.location cfa = Expression.evaluate bytes cfa) ∧
    (∀ cfa, entry.location cfa = .error .noLocation ↔
      (∀ attr ∈ entry.attributes, attr.1 ≠ locationAttribute) ∨
        ∃ value, entry.HasFirst locationAttribute value ∧
          ∀ bytes, value ≠ .block bytes ∧ value ≠ .expression bytes) ∧
    (∀ other : DebuggingEntry,
      Relation.ReflTransGen (Edit locationAttribute) entry.attributes other.attributes →
      ∀ cfa, other.location cfa = entry.location cfa) := by
  refine ⟨fun bytes hfirst cfa => ?_, fun cfa => ?_, fun other hedits cfa => ?_⟩
  · rcases hfirst with hblock | hexpression
    · exact location_of_attribute? (attribute?_eq_some_iff.mpr hblock) rfl cfa
    · exact location_of_attribute? (attribute?_eq_some_iff.mpr hexpression) rfl cfa
  · rw [location_eq_noLocation_iff, ← attribute?_eq_none_iff]
    rcases hfound : entry.attribute? locationAttribute with _ | value
    · exact iff_of_true rfl (Or.inl rfl)
    · rw [Option.bind_some, Option.eq_none_iff_forall_ne_some]
      simp only [ne_eq, AttributeValue.expression?_eq_some_iff, not_or]
      constructor
      · intro hnone
        exact Or.inr ⟨value, attribute?_eq_some_iff.mp hfound, hnone⟩
      · rintro (hmissing | ⟨other, hother, hnone⟩)
        · cases hmissing
        · cases hfound.symm.trans (attribute?_eq_some_iff.mpr hother)
          exact hnone
  · have hattribute : other.attribute? locationAttribute = entry.attribute? locationAttribute :=
      lookup_eq_of_edits hedits
    rw [location, location, hattribute]

/-- A constant in front hides the expression behind it. A broken expression in front does not. -/
example :
    location ⟨[(0x02, .unsigned 0x40), (0x02, .block [0x9c])]⟩ 8 = .error .noLocation ∧
    location ⟨[(0x03, .text "x"), (0x02, .block [0x22]), (0x02, .expression [0x9c])]⟩ 8 =
      .error (.stackUnderflow 2 0) :=
  ⟨by cbv, by cbv⟩

end DebuggingEntry

end CallFrame
