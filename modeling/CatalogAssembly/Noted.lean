/-!
# Results with notes

A computation that may fail takes notes of what happens up to its end. `andThen`
goes on with a result and keeps the notes of both parts in order; after a failure
nothing more is noted.
-/
namespace CatalogAssembly

/-- A result with the notes taken before it. -/
structure Noted (ν ε α : Type) where
  notes : List ν
  result : Except ε α

namespace Noted

variable {ν ε α β γ : Type}

def pure (x : α) : Noted ν ε α := ⟨[], .ok x⟩

def fail (e : ε) : Noted ν ε α := ⟨[], .error e⟩

def andThen (r : Noted ν ε α) (next : α → Noted ν ε β) : Noted ν ε β :=
  match r.result with
  | .error e => ⟨r.notes, .error e⟩
  | .ok x =>
    let others := next x
    ⟨r.notes ++ others.notes, others.result⟩

@[simp] theorem andThen_pure (r : Noted ν ε α) : r.andThen pure = r := by
  obtain ⟨notes, result⟩ := r
  cases result with
  | error e => rfl
  | ok x => simp [andThen, pure]

theorem andThen_assoc (r : Noted ν ε α) (f : α → Noted ν ε β) (g : β → Noted ν ε γ) :
    (r.andThen f).andThen g = r.andThen fun x => (f x).andThen g := by
  obtain ⟨notes, result⟩ := r
  cases result with
  | error e => rfl
  | ok x =>
    cases h : (f x).result with
    | error e => simp [andThen, h]
    | ok y => simp [andThen, h]

end Noted

end CatalogAssembly
