import Stencil.Proofs.Json.Numbers
import Stencil.Proofs.Json.Reading

/-! Numbers that are read belong to the binary format. A magnitude is made by
rounding alone, which never goes below the smallest exponent, and numbers come
into a value only as the scalars that are read. So all numbers in a value that
was read can be written. -/
namespace Stencil

/-! ### Rounding -/

namespace Magnitude

/-- Rounding does not go below the smallest exponent. -/
theorem minExponent_le_of_ofFraction? {numerator denominator : Nat} {rounded : Magnitude}
    (rounds : ofFraction? numerator denominator = some rounded) : minExponent ≤ rounded.exponent := by
  unfold ofFraction? at rounds
  split at rounds
  · obtain rfl := Option.some.inj rounds
    exact Int.le_refl _
  · simp only [Option.ite_none_left_eq_some, Option.some.injEq] at rounds
    obtain ⟨_, rfl⟩ := rounds
    split
    · exact Int.le_trans (Int.le_max_right ..) (Int.le_add_one (Int.le_refl _))
    · exact Int.le_max_right ..

theorem minExponent_le_of_mul? {left right product : Magnitude} (rounds : left.mul? right = some product) :
    minExponent ≤ product.exponent := minExponent_le_of_ofFraction? rounds

theorem minExponent_le_of_div? {left right quotient : Magnitude} (rounds : left.div? right = some quotient) :
    minExponent ≤ quotient.exponent := minExponent_le_of_ofFraction? rounds

/-- Every step of a division rounds once more. -/
theorem minExponent_le_divideByPower {magnitude : Magnitude} (inFormat : minExponent ≤ magnitude.exponent)
    (exponent : Nat) : minExponent ≤ (magnitude.divideByPower exponent).exponent := by
  have quotient_inFormat (magnitude : Magnitude) (step : Nat) :
      minExponent ≤ (((powerOfTen? step).bind magnitude.div?).getD zero).exponent := by
    cases divided : (powerOfTen? step).bind magnitude.div? with
    | none => exact Int.le_refl _
    | some quotient =>
      obtain ⟨power, _, rounds⟩ := Option.bind_eq_some_iff.mp divided
      exact minExponent_le_of_div? rounds
  fun_induction divideByPower magnitude exponent with
  | case1 magnitude exponent zero => exact inFormat
  | case2 magnitude exponent nonzero step quotient further ih => exact ih (quotient_inFormat magnitude step)
  | case3 magnitude exponent nonzero step quotient last => exact quotient_inFormat magnitude step

theorem minExponent_le_of_scale? {magnitude scaled : Magnitude} {exponent : Int}
    (inFormat : minExponent ≤ magnitude.exponent) (scales : magnitude.scale? exponent = some scaled) :
    minExponent ≤ scaled.exponent := by
  unfold scale? at scales
  split at scales
  · obtain rfl := Option.some.inj scales
    exact minExponent_le_divideByPower inFormat _
  · split at scales
    · obtain rfl := Option.some.inj scales
      exact inFormat
    · split at scales
      · cases scales
      · obtain ⟨power, _, rounds⟩ := Option.bind_eq_some_iff.mp scales
        exact minExponent_le_of_mul? rounds

end Magnitude

namespace Json

namespace Numeral

theorem inFormat_wholeNumber (negative : Bool) (significand : Nat) : (wholeNumber negative significand).InFormat := by
  unfold wholeNumber
  split
  · split
    · cases rounds : Magnitude.ofFraction? significand 1 with
      | none => exact Int.le_refl _
      | some rounded => exact Magnitude.minExponent_le_of_ofFraction? rounds
    · trivial
  · trivial

theorem inFormat_of_scaledNumber? {negative : Bool} {significand : Nat} {exponent : Int} {number : Number}
    (scales : scaledNumber? negative significand exponent = some number) : number.InFormat := by
  obtain ⟨scaled, found, rfl⟩ := Option.map_eq_some_iff.mp scales
  obtain ⟨rounded, rounds, scales⟩ := Option.bind_eq_some_iff.mp found
  exact Magnitude.minExponent_le_of_scale? (Magnitude.minExponent_le_of_ofFraction? rounds) scales

/-- The number that a numeral denotes belongs to the format. -/
theorem inFormat_of_number {numeral : Numeral} {number : Number} (denotes : numeral.number = .ok number) :
    number.InFormat := by
  unfold Numeral.number at denotes
  dsimp only at denotes
  split at denotes
  · split at denotes
    · exact Except.ok.inj denotes ▸ inFormat_wholeNumber _ _
    · split at denotes
      · rename_i scales
        exact Except.ok.inj denotes ▸ inFormat_of_scaledNumber? scales
      · cases denotes
  · split at denotes
    · split at denotes
      · rename_i scales
        exact Except.ok.inj denotes ▸ inFormat_of_scaledNumber? scales
      · cases denotes
    · split at denotes
      · obtain rfl := Except.ok.inj denotes
        exact Int.le_refl _
      · cases denotes

end Numeral

/-! ### Values -/

namespace Value

mutual

/-- All numbers in a value are whole or of the binary format. -/
def InFormat : Value → Prop
  | .null | .boolean _ | .string _ => True
  | .number value => value.InFormat
  | .array items => ItemsInFormat items
  | .object members => MembersInFormat members

/-- All numbers in items are whole or of the binary format. -/
def ItemsInFormat : List Value → Prop
  | [] => True
  | item :: items => item.InFormat ∧ ItemsInFormat items

/-- All numbers in members are whole or of the binary format. -/
def MembersInFormat : List (Text × Value) → Prop
  | [] => True
  | (_, value) :: members => value.InFormat ∧ MembersInFormat members

end

theorem itemsInFormat_iff {items : List Value} : ItemsInFormat items ↔ ∀ item ∈ items, item.InFormat := by
  induction items with
  | nil => simp [ItemsInFormat]
  | cons item items ih => rw [ItemsInFormat, ih, List.forall_mem_cons]

theorem membersInFormat_iff {members : List (Text × Value)} :
    MembersInFormat members ↔ ∀ member ∈ members, member.2.InFormat := by
  induction members with
  | nil => simp [MembersInFormat]
  | cons member members ih => rw [MembersInFormat, ih, List.forall_mem_cons]

end Value

/-! ### Reading -/

/-- The values without others in them; a number is whole or of the binary format. -/
inductive IsScalar : Value → Prop where
  | null : IsScalar .null
  | boolean (truth : Bool) : IsScalar (.boolean truth)
  | string (text : Text) : IsScalar (.string text)
  | number {number : Number} (inFormat : number.InFormat) : IsScalar (.number number)

variable {care : Care} {negative : Bool} {cursor next : Cursor} {value : Value} {text : Text}

theorem isScalar_of_readNumber (reads : readNumber care negative cursor = .ok (value, next)) : IsScalar value := by
  unfold readNumber at reads
  cases numeral_eq : readNumeral care negative cursor with
  | error fault => simp [numeral_eq] at reads
  | ok found =>
    cases care with
    | skipped =>
      simp only [numeral_eq, Except.ok.injEq, Prod.mk.injEq] at reads
      exact reads.1 ▸ .null
    | kept =>
      cases denotes : found.1.number with
      | error unread => simp [numeral_eq, denotes] at reads
      | ok number =>
        simp only [numeral_eq, denotes, Except.ok.injEq, Prod.mk.injEq] at reads
        exact reads.1 ▸ .number (Numeral.inFormat_of_number denotes)

theorem isScalar_of_readWordValue {word : Value} {letters : Text}
    (reads : readWordValue word letters cursor = .ok (value, next)) (isScalar : IsScalar word) : IsScalar value := by
  obtain ⟨last, _, same⟩ := ok_of_map reads
  exact (Prod.mk.inj same).1 ▸ isScalar

/-- What is read at once is no container. -/
theorem isScalar_of_readScalar (reads : readScalar care cursor = .ok (value, next)) : IsScalar value := by
  unfold readScalar at reads
  split at reads
  · cases reads
  · dsimp only at reads
    repeat' split at reads
    · exact isScalar_of_readWordValue reads .null
    · exact isScalar_of_readWordValue reads (.boolean true)
    · exact isScalar_of_readWordValue reads (.boolean false)
    · obtain ⟨found, _, same⟩ := ok_of_map reads
      exact (Prod.mk.inj same).1 ▸ .string found.1
    · exact isScalar_of_readNumber reads
    · exact isScalar_of_readNumber reads
    · cases reads

theorem IsScalar.inFormat (isScalar : IsScalar value) : value.InFormat := by
  cases isScalar with
  | null | boolean | string => trivial
  | number inFormat => exact inFormat

theorem inherited_inFormat : Inherited fun _ value => value.InFormat where
  scalar _ reads := (isScalar_of_readScalar reads).inFormat
  array _ inside := Value.itemsInFormat_iff.mpr inside
  object _ inside := Value.membersInFormat_iff.mpr inside

/-- **All numbers in a value that is read are whole or of the binary format.** -/
theorem inFormat_of_parse (reads : parse text = .ok value) : value.InFormat := inherited_inFormat.parse reads

/-- Only objects have members. -/
theorem exists_object_of_lookup {name : Text} {source : Value} (present : source.members.lookup name = some value) :
    ∃ members, source = .object members ∧ (name, value) ∈ members := by
  cases source with
  | object members =>
    obtain ⟨before, after, division, _⟩ := List.lookup_eq_some_iff.mp present
    have members_eq : members = before ++ (name, value) :: after := division
    exact ⟨members, rfl, by simp [members_eq]⟩
  | null | boolean | number | string | array => cases present

/-- So are those in every member of an object that is read. -/
theorem inFormat_of_lookup {name : Text} {source : Value} (reads : parse text = .ok source)
    (present : source.members.lookup name = some value) : value.InFormat := by
  obtain ⟨members, rfl, member⟩ := exists_object_of_lookup present
  exact Value.membersInFormat_iff.mp (inFormat_of_parse reads) (name, value) member

end Json
end Stencil
