import Mathlib.Order.Lattice
import OtamanBridge.Lib.Run

/-!
# Entries that lapse

An entry of a table is valid up to its deadline. Nothing happens when the deadline passes: the
entry goes when somebody looks at it later on, or when the table is swept. To the entry of one
key a step does one of a few things (`OtamanBridge.Expiry.Effect`), and what is there in the
end is what the effects have made of it, one after the other. So a value stands
(`OtamanBridge.Expiry.Stands`) when a step of the run wrote it, no later step replaced it or
took it away, and every later one that looked at it came before the deadline
(`OtamanBridge.Expiry.find_eq_some_iff`, and for what was there from the start
`OtamanBridge.Expiry.find_eq_some_iff_or`). The clocks that are looked at may go back.
-/

namespace OtamanBridge

namespace Expiry

variable {β τ ι σ : Type*} [LinearOrder τ]

/-- What a step does to the entry of a key. -/
inductive Effect (β τ : Type*)
  /-- Nothing. -/
  | none
  /-- The entry is written. -/
  | write (v : β)
  /-- The entry goes. -/
  | drop
  /-- The entry goes, if its deadline has passed at this time. -/
  | look (now : τ)

variable (deadline : β → τ)

/-- The entry after a step. -/
def Effect.apply : Effect β τ → Option β → Option β
  | .none, v => v
  | .write v, _ => some v
  | .drop, _ => .none
  | .look now, v => v.filter (now < deadline ·)

/-- The step leaves a value that it finds. -/
def Effect.Leaves (v : β) : Effect β τ → Prop
  | .none => True
  | .write _ => False
  | .drop => False
  | .look now => now < deadline v

variable {deadline}

theorem Effect.apply_eq_some_iff {e : Effect β τ} {u : Option β} {v : β} :
    e.apply deadline u = some v ↔ e = .write v ∨ u = some v ∧ e.Leaves deadline v := by
  rcases e with _ | w | _ | now
  · simp [Effect.apply, Effect.Leaves]
  · simp [Effect.apply, Effect.Leaves]
  · simp [Effect.apply, Effect.Leaves]
  · simp [Effect.apply, Effect.Leaves, Option.filter_eq_some_iff]

variable (deadline) in
/-- **A value stands**: a step of the run wrote it, and all later ones left it. -/
def Stands (R : σ → ι → σ → Prop) (effect : σ → ι → Effect β τ) (s₀ : σ) (ls : List ι) (s : σ)
    (v : β) : Prop :=
  ∃ earlier l later s₁ s₂, ls = earlier ++ l :: later ∧ Lts.Run R s₀ earlier s₁ ∧ R s₁ l s₂ ∧
    effect s₁ l = .write v ∧
      Lts.Run (Lts.Under (fun s l => (effect s l).Leaves deadline v) R) s₂ later s

variable {R : σ → ι → σ → Prop} {effect : σ → ι → Effect β τ} {s₀ s s' : σ} {ls : List ι} {l : ι}
  {v : β}

/-- One more step: it writes the value, or leaves one that stood. -/
theorem Stands.snoc (hrun : Lts.Run R s₀ ls s) (hl : R s l s')
    (h : effect s l = .write v ∨
      Stands deadline R effect s₀ ls s v ∧ (effect s l).Leaves deadline v) :
    Stands deadline R effect s₀ (ls ++ [l]) s' v := by
  rcases h with hwrite | ⟨⟨earlier, l₁, later, s₁, s₂, rfl, hearlier, hl₁, hwrite, hlater⟩, hleft⟩
  · exact ⟨ls, l, [], s, s', rfl, hrun, hl, hwrite, .nil⟩
  · refine ⟨earlier, l₁, later ++ [l], s₁, s₂, ?_, hearlier, hl₁, hwrite, hlater.snoc ⟨hleft, hl⟩⟩
    rw [List.append_assoc, List.cons_append]

/-- **What is found stands, or was there from the start** and was left by every step, where each
step has its effect. -/
theorem find_eq_some_iff_or {find : σ → Option β}
    (hstep : ∀ s l s', R s l s' → find s' = (effect s l).apply deadline (find s))
    (hrun : Lts.Run R s₀ ls s) : find s = some v ↔ Stands deadline R effect s₀ ls s v ∨
      find s₀ = some v ∧
        Lts.Run (Lts.Under (fun s l => (effect s l).Leaves deadline v) R) s₀ ls s := by
  constructor
  · intro hv
    induction hrun with
    | nil => exact .inr ⟨hv, .nil⟩
    | snoc hrun hl ih =>
      rw [hstep _ _ _ hl, Effect.apply_eq_some_iff] at hv
      rcases hv with hwrite | ⟨hv, hleft⟩
      · exact .inl (Stands.snoc hrun hl (.inl hwrite))
      · rcases ih hv with hstands | ⟨hv₀, hkept⟩
        · exact .inl (Stands.snoc hrun hl (.inr ⟨hstands, hleft⟩))
        · exact .inr ⟨hv₀, hkept.snoc ⟨hleft, hl⟩⟩
  · -- whoever leaves a value leaves it to be found
    have hkeep : ∀ {a b : σ} {ms : List ι}, find a = some v →
        Lts.Run (Lts.Under (fun s l => (effect s l).Leaves deadline v) R) a ms b →
          find b = some v := fun ha hms =>
      hms.inv_state (I := fun s => find s = some v) ha fun a l b hv hab => by
        rw [hstep _ _ _ hab.2, Effect.apply_eq_some_iff]
        exact .inr ⟨hv, hab.1⟩
    rintro (⟨earlier, l, later, s₁, s₂, rfl, -, hl, hwrite, hlater⟩ | ⟨hv, hkept⟩)
    · refine hkeep ?_ hlater
      rw [hstep _ _ _ hl, hwrite]
      rfl
    · exact hkeep hv hkept

/-- **What is found stands, and what stands is found**, if there was nothing at the start. -/
theorem find_eq_some_iff {find : σ → Option β} (hnone : find s₀ = none)
    (hstep : ∀ s l s', R s l s' → find s' = (effect s l).apply deadline (find s))
    (hrun : Lts.Run R s₀ ls s) : find s = some v ↔ Stands deadline R effect s₀ ls s v := by
  rw [find_eq_some_iff_or hstep hrun, hnone]
  simp only [reduceCtorEq, false_and, or_false]

end Expiry

end OtamanBridge
