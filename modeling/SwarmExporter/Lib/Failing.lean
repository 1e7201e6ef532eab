/-!
# Computations whose failure keeps the state

In `EStateM` a computation that throws keeps the writes it made before, as a panic that is recovered
does. Where a computation is known to return, the binds after it go on from the state it left
(`bind_ok`); a loop whose every call is known to return runs all of them (`forM_ok`).
-/

namespace SwarmExporter.Lib

variable {ε σ α β : Type}

theorem bind_ok {computation : EStateM ε σ α} {next : α → EStateM ε σ β} {state state' : σ} {value : α}
    (h : computation state = .ok value state') : (computation >>= next) state = next value state' := by
  show EStateM.bind _ _ _ = _
  unfold EStateM.bind
  rw [h]

theorem bind_error {computation : EStateM ε σ α} {next : α → EStateM ε σ β} {state state' : σ}
    {error : ε} (h : computation state = .error error state') :
    (computation >>= next) state = .error error state' := by
  show EStateM.bind _ _ _ = _
  unfold EStateM.bind
  rw [h]

theorem bind_modify (f : σ → σ) (next : PUnit → EStateM ε σ β) (state : σ) :
    ((modify f : EStateM ε σ PUnit) >>= next) state = next () (f state) := rfl

/-- A loop over `items` whose call on an item returns and leaves `write state item`, as long as
`inv` holds of the state it starts from. -/
theorem forM_ok {body : α → EStateM ε σ Unit} (write : σ → α → σ) (inv : σ → Prop)
    (items : List α) {state : σ} (hstate : inv state)
    (hbody : ∀ item ∈ items, ∀ state, inv state →
      body item state = .ok () (write state item) ∧ inv (write state item)) :
    (forM items body) state = .ok () (items.foldl write state) := by
  induction items generalizing state with
  | nil => rfl
  | cons item items ih =>
    obtain ⟨hitem, hinv⟩ := hbody item List.mem_cons_self state hstate
    rw [List.forM_cons, bind_ok hitem, List.foldl_cons]
    exact ih hinv fun other hother => hbody other (List.mem_cons_of_mem _ hother)

end SwarmExporter.Lib
