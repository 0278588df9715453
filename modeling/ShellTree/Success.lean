/-!
# Success

Computations that can fail, taken apart where they are known to succeed.
-/

namespace ShellTree

variable {ε α β : Type}

/-- Two steps that can fail succeed together exactly if each does. -/
theorem bind_eq_ok {first : Except ε α} {next : α → Except ε β} {result : β} :
    first >>= next = .ok result ↔ ∃ middle, first = .ok middle ∧ next middle = .ok result := by
  cases first <;> simp [bind, Except.bind]

@[simp] theorem pure_eq_ok {value result : α} : (pure value : Except ε α) = .ok result ↔ value = result := by
  simp [pure, Except.pure]

end ShellTree
