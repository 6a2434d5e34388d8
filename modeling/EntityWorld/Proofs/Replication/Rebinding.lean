import EntityWorld.Proofs.Replication.NetworkIds
set_option autoImplicit false

/-!
Binding an id to an entity. Whatever either of them was bound to is free afterwards, and no other
pair is touched. The former holder of the id is told, unless it is the entity itself: its pair is
taken away before the holder of the id is looked up.
-/
namespace EntityWorld
namespace NetworkIds

variable {m : NetworkIds} {n : NetworkId} {e : Entity} {R : NetworkId → Entity → Prop}

/-- `n` and `e` are bound to each other in `m'`, and nothing but their former pairs is gone. -/
structure Rebinds (m : NetworkIds) (n : NetworkId) (e : Entity) (m' : NetworkIds) : Prop where
  entity : m'.entity? n = some e
  networkId : m'.networkId? e = some n
  holder : ∀ x, m.entity? n = some x → x ≠ e → m'.networkId? x = none
  former : ∀ k, m.networkId? e = some k → k ≠ n → m'.entity? k = none
  entities : ∀ k, k ≠ n → m.networkId? e ≠ some k → m'.entity? k = m.entity? k
  networkIds : ∀ x, x ≠ e → m.entity? n ≠ some x → m'.networkId? x = m.networkId? x

theorem Holds.rebinds (h : m.Holds R) (n : NetworkId) (e : Entity) :
    m.Rebinds n e (m.bind n e).2 := by
  have hbound := h.bind n e
  constructor
  · exact (hbound.entity n e).2 (.inl ⟨rfl, rfl⟩)
  · exact (hbound.networkId n e).2 (.inl ⟨rfl, rfl⟩)
  · intro x hx hne
    refine Option.eq_none_iff_forall_ne_some.2 fun k hk => ?_
    obtain hpair | hkept := (hbound.networkId k x).1 hk
    · exact hne hpair.2
    · exact hkept.2.1 (h.id_unique hkept.1 ((h.entity n x).1 hx))
  · intro k hk hne
    refine Option.eq_none_iff_forall_ne_some.2 fun x hx => ?_
    obtain hpair | hkept := (hbound.entity k x).1 hx
    · exact hne hpair.1
    · exact hkept.2.2 (h.entity_unique hkept.1 ((h.networkId k e).1 hk))
  · intro k hk hother
    refine Option.ext fun x => ?_
    rw [hbound.entity, h.entity, or_iff_right fun hpair => hk hpair.1]
    refine and_iff_left_of_imp fun hr => ⟨hk, fun hx => hother ?_⟩
    exact (h.networkId k e).2 (hx ▸ hr)
  · intro x hx hother
    refine Option.ext fun k => ?_
    rw [hbound.networkId, h.networkId, or_iff_right fun hpair => hx hpair.2]
    refine and_iff_left_of_imp fun hr => ⟨fun hk => hother ?_, hx⟩
    exact (h.entity n x).2 (hk ▸ hr)

theorem bind_fst (m : NetworkIds) (n : NetworkId) (e : Entity) :
    (m.bind n e).1 = if m.networkId? e = some n then none else m.entity? n := by
  rw [bind, networkId?, entity?]
  cases m.toNetwork.get? e with
  | none => simp
  | some old => simp [FinMap.get?_erase, eq_comm]

/-- After any calls a binding replaces both sides, and tells the former holder of the id if and only
if that is not the entity already. -/
theorem foldl_call_rebinds (calls : List Call) (n : NetworkId) (e : Entity) :
    let m := calls.foldl call empty
    m.Rebinds n e (m.bind n e).2 ∧
      (m.bind n e).1 = (if m.entity? n = some e then none else m.entity? n) ∧
      ((m.bind n e).1 = m.entity? n ↔ m.entity? n ≠ some e) := by
  intro m
  obtain ⟨R, h⟩ : ∃ R, m.Holds R := holds_empty.foldl calls
  have hfst : (m.bind n e).1 = if m.entity? n = some e then none else m.entity? n := by
    simp only [bind_fst, h.inverse n e]
  refine ⟨h.rebinds n e, hfst, ?_⟩
  rw [hfst]
  by_cases hbound : m.entity? n = some e
  · simp [hbound]
  · simp [hbound]

theorem bind_again_tells_none :
    let m := [.bind ⟨5⟩ ⟨0, 0⟩].foldl call empty
    m.entity? ⟨5⟩ = some ⟨0, 0⟩ ∧ (m.bind ⟨5⟩ ⟨0, 0⟩).1 = none ∧
      (m.bind ⟨5⟩ ⟨0, 0⟩).1 ≠ m.entity? ⟨5⟩ := by
  decide

end NetworkIds
end EntityWorld
