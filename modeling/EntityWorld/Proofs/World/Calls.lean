import EntityWorld.Command
import Mathlib.Data.List.Basic
set_option autoImplicit false

/-!
The calls that the commands of a buffer stand for. A token names a spawn of its buffer that comes
before the command, so it may be read from the beginning as the entity in its place of the final
report, and applying the commands is making the calls one after another.
-/
namespace EntityWorld

inductive Call where
  | spawn
  | despawn (e : Entity)
  | writeValue (e : Entity) (v : ComponentValue)
  | add (e : Entity) (id : Id)
  | remove (e : Entity) (id : Id)
  | addPair (e : Entity) (relation : TypeHandle) (target : Entity)
  | removePair (e : Entity) (relation : TypeHandle) (target : Entity)

abbrev Outcome := Except EcsError (Option Entity)

namespace Outcome

def settle {α : Type} (r : Except EcsError α × World) : Outcome × World :=
  (r.1.map fun _ => none, r.2)

def entities : Outcome → List Entity
  | .ok (some e) => [e]
  | _ => []

def isOk : Outcome → Bool
  | .ok _ => true
  | .error _ => false

def error? : Outcome → Option EcsError
  | .ok _ => none
  | .error err => some err

theorem entities_settle {α : Type} (r : Except EcsError α × World) :
    (settle r).1.entities = [] := by
  obtain ⟨a, w⟩ := r
  cases a <;> rfl

theorem of_settle_error {α : Type} {r : Except EcsError α × World} {err : EcsError}
    (h : (settle r).1 = .error err) : r.1 = .error err := by
  obtain ⟨a, w⟩ := r
  cases a with
  | error err' =>
    cases h
    rfl
  | ok a => cases h

end Outcome

def CommandReport.after (report : CommandReport) (r : Outcome) : CommandReport :=
  ⟨report.spawned ++ r.entities, report.applied + r.isOk.toNat, report.errors ++ r.error?.toList⟩

namespace Call

def isSpawn : Call → Bool
  | .spawn => true
  | _ => false

def dropEvents : Call → List HookEvent
  | .writeValue _ v => v.dropEvents
  | _ => []

end Call

/-- Make a call. The despawn of a dead entity is no fault. -/
def World.call (w : World) : Call → Outcome × World
  | .spawn => (.ok (some w.spawn.1), w.spawn.2)
  | .despawn e => (.ok none, (w.despawn e).2)
  | .writeValue e v => Outcome.settle (w.writeValue e v)
  | .add e id => Outcome.settle (w.add e id)
  | .remove e id => Outcome.settle (w.remove e id)
  | .addPair e relation target => Outcome.settle (w.addPair e relation target)
  | .removePair e relation target => Outcome.settle (w.removePair e relation target)

namespace Command

def targets : Command → List Target
  | .spawn => []
  | .despawn t | .insert t _ | .add t _ | .remove t _ => [t]
  | .addPair t _ o | .removePair t _ o => [t, o]

def isSpawn : Command → Bool
  | .spawn => true
  | _ => false

def dropEvents : Command → List HookEvent
  | .insert _ v => v.dropEvents
  | _ => []

def call (f : Target → Except EcsError Entity) : Command → Except EcsError Call
  | .spawn => .ok .spawn
  | .despawn t => (f t).map .despawn
  | .insert t v => (f t).map fun e => .writeValue e v
  | .add t id => (f t).map fun e => .add e id
  | .remove t id => (f t).map fun e => .remove e id
  | .addPair t relation o => (f t).bind fun e => (f o).map fun x => .addPair e relation x
  | .removePair t relation o => (f t).bind fun e => (f o).map fun x => .removePair e relation x

variable {f g : Target → Except EcsError Entity} {c : Command} {x : Call} {err : EcsError}

theorem call_congr (h : ∀ t ∈ c.targets, f t = g t) : c.call f = c.call g := by
  cases c with
  | spawn => rfl
  | despawn t | insert t v | add t id | remove t id => rw [call, call, h t (by simp [targets])]
  | addPair t relation o | removePair t relation o =>
    rw [call, call, h t (by simp [targets]), h o (by simp [targets])]

theorem call_cases (c : Command) (f : Target → Except EcsError Entity) :
    (∃ x, c.call f = .ok x ∧ x.isSpawn = c.isSpawn ∧ x.dropEvents = c.dropEvents ∧
        ∀ t ∈ c.targets, ∃ e, f t = .ok e) ∨
      ∃ err, c.call f = .error err ∧ ∃ t ∈ c.targets, f t = .error err := by
  cases c with
  | spawn => exact .inl ⟨.spawn, rfl, rfl, rfl, nofun⟩
  | despawn t | insert t v | add t id | remove t id =>
    cases ht : f t with
    | error err => exact .inr ⟨err, by rw [call, ht]; rfl, t, by simp [targets], ht⟩
    | ok e => exact .inl ⟨_, by rw [call, ht]; rfl, rfl, rfl, by simp [targets, ht]⟩
  | addPair t relation o | removePair t relation o =>
    cases ht : f t with
    | error err => exact .inr ⟨err, by rw [call, ht]; rfl, t, by simp [targets], ht⟩
    | ok e =>
      cases ho : f o with
      | error err =>
        exact .inr ⟨err, by rw [call, ht, Except.bind, ho]; rfl, o, by simp [targets], ho⟩
      | ok x =>
        exact .inl ⟨_, by rw [call, ht, Except.bind, ho]; rfl, rfl, rfl,
          by simp [targets, ht, ho]⟩

end Command

namespace World

variable {w v : World} {e : Entity} {id : Id}

/-- A command of a buffer as a direct call, with the entities that all spawns of the buffer make.
Where a target stands for nothing there is no call, and a value to be stored is given up. -/
def direct (w : World) (buffer : UInt32) (spawned : List Entity) (c : Command) : Outcome × World :=
  match c.call fun t => t.resolve buffer spawned with
  | .error err => (.error err, w.note c.dropEvents)
  | .ok x => w.call x

theorem applyCommand_eq_direct (w : World) (buffer : UInt32) (spawned : List Entity) (c : Command) :
    w.applyCommand buffer spawned c = w.direct buffer spawned c := by
  cases c with
  | spawn => rfl
  | despawn t | insert t v | add t id | remove t id =>
    simp only [applyCommand, direct, Command.call]
    cases t.resolve buffer spawned <;> rfl
  | addPair t relation o | removePair t relation o =>
    simp only [applyCommand, direct, Command.call]
    cases t.resolve buffer spawned with
    | error err => rfl
    | ok e => cases o.resolve buffer spawned <;> rfl

/-! ### Failure -/

/-- A failure leaves the world as it was, and is not about tokens. -/
def Clean {α : Type} (w : World) (r : Except EcsError α × World) : Prop :=
  ∀ err, r.1 = .error err → r.2 = w ∧ ∀ i, err ≠ .foreignPending i

theorem clean_of_ok {α : Type} {a : α} : w.Clean (.ok a, v) := nofun

theorem clean_same {α : Type} {err : EcsError} (h : ∀ i, err ≠ .foreignPending i) :
    w.Clean ((.error err, w) : Except EcsError α × World) := by
  intro err' heq
  cases heq
  exact ⟨rfl, h⟩

theorem clean_insertWith (w : World) (e : Entity) (l : Location) (id : Id)
    (fill : Column → Column × List HookEvent) : w.Clean (w.insertWith e l id fill) := by
  unfold insertWith
  split
  · exact clean_same nofun
  · simp only
    split <;> exact clean_of_ok

theorem place_ne_foreign {err : EcsError} (h : w.place e = .error err) (i : UInt32) :
    err ≠ .foreignPending i := by
  unfold place at h
  split at h
  · cases h
  · cases h
    nofun

theorem checkId_ne_foreign {err : EcsError} (h : w.checkId id = .error err) (i : UInt32) :
    err ≠ .foreignPending i := by
  unfold checkId descriptor at h
  split at h
  · next hd =>
    cases h
    split at hd <;> cases hd
    nofun
  · split at h
    · cases h
      nofun
    · split at h
      · cases h
        nofun
      · cases h

theorem Clean.map {α β : Type} {r : Except EcsError α × World} (h : w.Clean r) (f : α → β) :
    w.Clean (r.1.map f, r.2) := by
  obtain ⟨a, v⟩ := r
  cases a with
  | error err =>
    intro err' heq
    cases heq
    exact h err rfl
  | ok a => exact clean_of_ok

theorem clean_add (w : World) (e : Entity) (id : Id) : w.Clean (w.add e id) := by
  unfold add
  split
  · next hplace => exact clean_same (place_ne_foreign hplace)
  · split
    · next hcheck => exact clean_same (checkId_ne_foreign hcheck)
    · split
      · exact clean_of_ok
      · split
        · exact clean_same nofun
        · exact (w.clean_insertWith e _ id _).map _

theorem clean_remove (w : World) (e : Entity) (id : Id) : w.Clean (w.remove e id) := by
  unfold remove
  split
  · next hplace => exact clean_same (place_ne_foreign hplace)
  · split
    · exact clean_same nofun
    · simp only
      split <;> exact clean_of_ok

theorem clean_put (w : World) (e : Entity) (id : Id) (x : Value) (how : Transfer) :
    w.Clean (w.put e id x how) := by
  unfold put
  split
  · next hplace => exact clean_same (place_ne_foreign hplace)
  · split
    · next hcheck => exact clean_same (checkId_ne_foreign hcheck)
    · split
      · split
        · exact clean_of_ok
        · exact w.clean_insertWith e _ id _
      · exact w.clean_insertWith e _ id _

theorem clean_addPair (w : World) (e : Entity) (relation : TypeHandle) (target : Entity) :
    w.Clean (w.addPair e relation target) := by
  unfold addPair
  split
  · exact w.clean_add e _
  · exact clean_same nofun

theorem writeValue_of_error {x : ComponentValue} {err : EcsError}
    (h : (w.writeValue e x).1 = .error err) :
    (w.writeValue e x).2 = w.note x.dropEvents ∧ ∀ i, err ≠ .foreignPending i := by
  have hput := w.clean_put e (Id.component x.handle) x.value .move
  unfold writeValue at h ⊢
  split at h
  · cases h
  · next hr =>
    cases h
    obtain ⟨hsame, hforeign⟩ := hput err (by rw [hr])
    rw [hr] at hsame
    exact ⟨congrArg (·.note x.dropEvents) hsame, hforeign⟩

theorem call_of_error {x : Call} {err : EcsError} (h : (w.call x).1 = .error err) :
    (w.call x).2 = w.note x.dropEvents ∧ ∀ i, err ≠ .foreignPending i := by
  cases x with
  | spawn | despawn e => cases h
  | writeValue e v => exact writeValue_of_error (Outcome.of_settle_error h)
  | add e id => exact w.clean_add e id err (Outcome.of_settle_error h)
  | remove e id => exact w.clean_remove e id err (Outcome.of_settle_error h)
  | addPair e relation target =>
    exact w.clean_addPair e relation target err (Outcome.of_settle_error h)
  | removePair e relation target => exact w.clean_remove e _ err (Outcome.of_settle_error h)

end World

/-! ### Tokens -/

namespace Target

variable {t : Target} {buffer : UInt32} {spawned : List Entity}

theorem resolve_eq_error {err : EcsError} (h : t.resolve buffer spawned = .error err) :
    ∃ p, t = .pending p ∧ err = .foreignPending p.index := by
  cases t with
  | live e => cases h
  | pending p =>
    refine ⟨p, rfl, ?_⟩
    unfold resolve at h
    simp only at h
    split at h
    · split at h <;> cases h
      rfl
    · cases h
      rfl

theorem resolve_foreign {p : PendingEntity} (h : p.buffer ≠ buffer) :
    (pending p).resolve buffer spawned = .error (.foreignPending p.index) := by
  simp [resolve, h]

theorem resolve_append {p : PendingEntity} (later : List Entity)
    (h : p.buffer = buffer → p.index.toNat < spawned.length) :
    (pending p).resolve buffer (spawned ++ later) = (pending p).resolve buffer spawned := by
  by_cases hp : p.buffer = buffer
  · simp only [resolve, List.getElem?_append_left (h hp)]
  · rw [resolve_foreign hp, resolve_foreign hp]

theorem exists_resolve
    (h : ∀ p, t = .pending p → p.buffer = buffer ∧ p.index.toNat < spawned.length) :
    ∃ e, t.resolve buffer spawned = .ok e := by
  cases t with
  | live e => exact ⟨e, rfl⟩
  | pending p =>
    obtain ⟨hp, hlt⟩ := h p rfl
    exact ⟨spawned[p.index.toNat], by simp [resolve, hp, hlt]⟩

end Target

/-- In a list of commands that follows `n` spawns, each token of the buffer names one of the spawns
before it. -/
def Command.Ordered (buffer : UInt32) (n : Nat) : List Command → Prop
  | [] => True
  | c :: rest => (∀ p, .pending p ∈ c.targets → p.buffer = buffer → p.index.toNat < n) ∧
      Ordered buffer (n + c.isSpawn.toNat) rest

theorem Command.ordered_append {buffer : UInt32} {n : Nat} {before after : List Command} :
    Ordered buffer n (before ++ after) ↔
      Ordered buffer n before ∧ Ordered buffer (n + before.countP isSpawn) after := by
  induction before generalizing n with
  | nil => exact (and_iff_right trivial).symm
  | cons c rest ih =>
    rw [List.cons_append, Ordered, Ordered, ih, and_assoc, List.countP_cons, Nat.add_assoc,
      Nat.add_comm (rest.countP isSpawn)]
    cases c.isSpawn <;> rfl

namespace World

variable {w v : World} {buffer : UInt32} {spawned : List Entity} {c : Command}

/-! ### One after another -/

theorem length_entities_call (w : World) (x : Call) :
    (w.call x).1.entities.length = x.isSpawn.toNat := by
  cases x with
  | spawn | despawn e => rfl
  | _ =>
    rw [call, Outcome.entities_settle]
    rfl

theorem length_entities_direct (w : World) (buffer : UInt32) (spawned : List Entity) (c : Command) :
    (w.direct buffer spawned c).1.entities.length = c.isSpawn.toNat := by
  unfold direct
  obtain ⟨x, hx, hspawn, -⟩ | ⟨err, herr, t, ht, -⟩ :=
    c.call_cases fun t => t.resolve buffer spawned
  · rw [hx, ← hspawn]
    exact w.length_entities_call x
  · rw [herr]
    cases c with
    | spawn => cases ht
    | _ => rfl

theorem direct_append (later : List Entity)
    (h : ∀ p, .pending p ∈ c.targets → p.buffer = buffer → p.index.toNat < spawned.length) :
    w.direct buffer (spawned ++ later) c = w.direct buffer spawned c := by
  have hcall : (c.call fun t => t.resolve buffer (spawned ++ later)) =
      c.call fun t => t.resolve buffer spawned := by
    apply Command.call_congr
    intro t ht
    cases t with
    | live e => rfl
    | pending p => exact Target.resolve_append later (h p ht)
  rw [direct, direct, hcall]

def directAll (w : World) (buffer : UInt32) (spawned : List Entity) :
    List Command → List Outcome × World
  | [] => ([], w)
  | c :: rest =>
    let r := w.direct buffer spawned c
    let (outcomes, v) := r.2.directAll buffer spawned rest
    (r.1 :: outcomes, v)

def outcomes (w : World) (buffer : UInt32) (spawned : List Entity) : List Command → List Outcome
  | [] => []
  | c :: rest =>
    let r := w.applyCommand buffer spawned c
    r.1 :: r.2.outcomes buffer (spawned ++ Outcome.entities r.1) rest

theorem directAll_append (w : World) (buffer : UInt32) (spawned : List Entity)
    (before after : List Command) : w.directAll buffer spawned (before ++ after) =
      ((w.directAll buffer spawned before).1 ++
          ((w.directAll buffer spawned before).2.directAll buffer spawned after).1,
        ((w.directAll buffer spawned before).2.directAll buffer spawned after).2) := by
  induction before generalizing w with
  | nil => rfl
  | cons c rest ih => simp only [List.cons_append, directAll, ih]

theorem length_entities_directAll (w : World) (buffer : UInt32) (spawned : List Entity)
    (commands : List Command) :
    ((w.directAll buffer spawned commands).1.flatMap Outcome.entities).length =
      commands.countP Command.isSpawn := by
  induction commands generalizing w with
  | nil => rfl
  | cons c rest ih =>
    rw [directAll, List.flatMap_cons, List.length_append, ih, length_entities_direct,
      List.countP_cons, Nat.add_comm]
    cases c.isSpawn <;> rfl

theorem length_directAll (w : World) (buffer : UInt32) (spawned : List Entity)
    (commands : List Command) :
    (w.directAll buffer spawned commands).1.length = commands.length := by
  induction commands generalizing w with
  | nil => rfl
  | cons c rest ih => rw [directAll, List.length_cons, ih, List.length_cons]

theorem applyAll_cons (w : World) (buffer : UInt32) (report : CommandReport) (c : Command)
    (rest : List Command) : applyAll buffer w report (c :: rest) =
      applyAll buffer (w.applyCommand buffer report.spawned c).2
        (report.after (w.applyCommand buffer report.spawned c).1) rest := by
  rw [applyAll]
  obtain ⟨outcome, v⟩ := w.applyCommand buffer report.spawned c
  cases outcome with
  | ok made =>
    cases made <;> simp [CommandReport.after, Outcome.entities, Outcome.isOk, Outcome.error?]
  | error err => simp [CommandReport.after, Outcome.entities, Outcome.isOk, Outcome.error?]

theorem applyAll_fst (w : World) (buffer : UInt32) (report : CommandReport)
    (commands : List Command) : (applyAll buffer w report commands).1 =
      ⟨report.spawned ++ (w.outcomes buffer report.spawned commands).flatMap Outcome.entities,
        report.applied + (w.outcomes buffer report.spawned commands).countP Outcome.isOk,
        report.errors ++ (w.outcomes buffer report.spawned commands).filterMap Outcome.error?⟩ := by
  induction commands generalizing w report with
  | nil => simp [applyAll, outcomes]
  | cons c rest ih =>
    rw [applyAll_cons, ih, outcomes]
    simp only [CommandReport.after, List.flatMap_cons, List.append_assoc, List.countP_cons,
      List.filterMap_cons, CommandReport.mk.injEq, true_and]
    obtain ⟨outcome, v⟩ := w.applyCommand buffer report.spawned c
    cases outcome <;> simp [Outcome.isOk, Outcome.error?, Nat.add_assoc, Nat.add_comm 1]

theorem directAll_eq {es : List Entity} {commands : List Command} (report : CommandReport)
    (hes : es = report.spawned ++
      (w.outcomes buffer report.spawned commands).flatMap Outcome.entities)
    (hord : Command.Ordered buffer report.spawned.length commands) :
    w.directAll buffer es commands =
      (w.outcomes buffer report.spawned commands, (applyAll buffer w report commands).2) := by
  induction commands generalizing w report with
  | nil => rfl
  | cons c rest ih =>
    obtain ⟨hc, hrest⟩ := hord
    have hdirect : w.direct buffer es c = w.applyCommand buffer report.spawned c := by
      rw [hes, direct_append _ hc, applyCommand_eq_direct]
    rw [outcomes, List.flatMap_cons, ← List.append_assoc] at hes
    have hlength := w.length_entities_direct buffer report.spawned c
    rw [← applyCommand_eq_direct] at hlength
    have hafter : Command.Ordered buffer
        (report.after (w.applyCommand buffer report.spawned c).1).spawned.length rest := by
      rwa [CommandReport.after, List.length_append, hlength]
    rw [directAll, hdirect, applyAll_cons, outcomes, ih _ hes hafter]
    rfl

/-! ### What comes of one command -/

theorem direct_eq_foreign {p : PendingEntity} (hp : .pending p ∈ c.targets)
    (hne : p.buffer ≠ buffer) :
    ∃ i, (w.direct buffer spawned c).1 = .error (.foreignPending i) := by
  unfold direct
  obtain ⟨x, -, -, -, hall⟩ | ⟨err, herr, t, ht, hterr⟩ :=
    c.call_cases fun t => t.resolve buffer spawned
  · obtain ⟨e, he⟩ := hall _ hp
    rw [Target.resolve_foreign hne] at he
    cases he
  · obtain ⟨p, -, rfl⟩ := Target.resolve_eq_error hterr
    exact ⟨p.index, by rw [herr]⟩

theorem direct_ne_foreign
    (h : ∀ p, .pending p ∈ c.targets → p.buffer = buffer ∧ p.index.toNat < spawned.length)
    (i : UInt32) : (w.direct buffer spawned c).1 ≠ .error (.foreignPending i) := by
  unfold direct
  obtain ⟨x, hx, -⟩ | ⟨err, -, t, ht, hterr⟩ := c.call_cases fun t => t.resolve buffer spawned
  · rw [hx]
    intro herr
    exact (call_of_error herr).2 i rfl
  · obtain ⟨e, he⟩ := Target.exists_resolve (t := t) fun p hp => h p (hp ▸ ht)
    rw [he] at hterr
    cases hterr

theorem direct_of_error {err : EcsError} (h : (w.direct buffer spawned c).1 = .error err) :
    (w.direct buffer spawned c).2 = w.note c.dropEvents := by
  unfold direct at h ⊢
  obtain ⟨x, hx, -, hdrop, -⟩ | ⟨err', herr, -⟩ := c.call_cases fun t => t.resolve buffer spawned
  · rw [hx] at h ⊢
    rw [← hdrop]
    exact (call_of_error h).1
  · rw [herr]

end World

end EntityWorld
