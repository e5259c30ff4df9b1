/-!
# When a checked computation succeeds

A computation that may be refused is taken apart step by step: it succeeds exactly when each of
its steps does.
-/

namespace Pipework

variable {ε α β : Type}

theorem bind_eq_ok_iff
    {result : Except ε α} {next : α → Except ε β} {value : β} :
    (result >>= next) = .ok value ↔ ∃ found, result = .ok found ∧ next found = .ok value := by
  cases result with
  | error error => simp [bind, Except.bind]
  | ok found => simp [bind, Except.bind]

/-- A check that gives nothing lets pass what stands behind it. -/
theorem check_bind_eq_ok_iff
    {check : Except ε Unit} {next : Unit → Except ε β} {value : β} :
    (check >>= next) = .ok value ↔ check = .ok () ∧ next () = .ok value := by
  rw [bind_eq_ok_iff]
  exact ⟨fun ⟨(), passed, rest⟩ => ⟨passed, rest⟩, fun both => ⟨(), both⟩⟩

/-- A check that throws when a condition holds lets pass exactly when it does not. -/
theorem ite_throw_eq_ok_iff
    {condition : Prop} [Decidable condition] {error : ε} {behind : α → Except ε β}
    {otherwise : Except ε β} {value : β} :
    (if condition then (throw error : Except ε α) >>= behind else otherwise) = .ok value ↔
      ¬ condition ∧ otherwise = .ok value := by
  by_cases holds : condition
  · simp [holds, bind, Except.bind, throw, throwThe, MonadExceptOf.throw]
  · simp [holds]

theorem exists_eq_ok_of_isOk
    {result : Except ε α} (succeeds : result.isOk = true) :
    ∃ value, result = .ok value := by
  cases result with
  | error error => exact absurd succeeds Bool.false_ne_true
  | ok value => exact ⟨value, rfl⟩

theorem pure_eq_ok_iff
    {found value : α} :
    (pure found : Except ε α) = .ok value ↔ value = found := by
  simp [pure, Except.pure, eq_comm]

theorem map_eq_ok_iff
    {change : α → β} {result : Except ε α} {value : β} :
    result.map change = .ok value ↔ ∃ found, result = .ok found ∧ change found = value := by
  cases result <;> simp [Except.map]

/-- To tell an error in another way does not make one of a success, nor the other way round. -/
theorem mapError_eq_ok_iff
    {ε' : Type} {tell : ε → ε'} {result : Except ε α} {value : α} :
    result.mapError tell = .ok value ↔ result = .ok value := by
  cases result with
  | error error => exact ⟨nofun, nofun⟩
  | ok found =>
      constructor
      · intro same
        exact congrArg Except.ok (Except.ok.inj same)
      · intro same
        exact congrArg Except.ok (Except.ok.inj same)

end Pipework
