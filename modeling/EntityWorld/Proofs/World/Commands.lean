import EntityWorld.Proofs.World.Calls
set_option autoImplicit false

/-!
Recording buffers of commands. Every buffer has a number of its own, and the tokens it gives out
count its spawns, so the commands of a recorded buffer are the calls that were meant.
-/
namespace EntityWorld

/-- Buffers that were created one after another and recorded into, and the tokens given out, each
with the place of its buffer. There are numbers for all buffers and all spawns of each. -/
inductive Recording : List CommandBuffer → List (Nat × PendingEntity) → Prop where
  | nil : Recording [] []
  | create {buffers : List CommandBuffer} {tokens : List (Nat × PendingEntity)} :
      Recording buffers tokens → buffers.length + 1 < 0x100000000 →
      Recording (buffers ++ [.empty (UInt32.ofNat (buffers.length + 1))]) tokens
  | spawn {buffers : List CommandBuffer} {tokens : List (Nat × PendingEntity)} {k : Nat}
      {b : CommandBuffer} : Recording buffers tokens → buffers[k]? = some b →
      b.commands.countP Command.isSpawn + 1 < 0x100000000 →
      Recording (buffers.set k b.spawn.2) (tokens ++ [(k, b.spawn.1)])
  | record {buffers : List CommandBuffer} {tokens : List (Nat × PendingEntity)} {k : Nat}
      {b : CommandBuffer} (c : Command) : Recording buffers tokens → buffers[k]? = some b →
      c.isSpawn = false → (∀ p, .pending p ∈ c.targets → ∃ j, (j, p) ∈ tokens) →
      Recording (buffers.set k (b.record c)) tokens

/-- What recording keeps. -/
structure Tidy (buffers : List CommandBuffer) (tokens : List (Nat × PendingEntity)) : Prop where
  ids : ∀ (k : Nat) (b : CommandBuffer), buffers[k]? = some b → b.id.toNat = k + 1
  spawns : ∀ (k : Nat) (b : CommandBuffer), buffers[k]? = some b →
    b.spawns.toNat = b.commands.countP Command.isSpawn
  ordered : ∀ (k : Nat) (b : CommandBuffer), buffers[k]? = some b →
    Command.Ordered b.id 0 b.commands
  tokens : ∀ (k : Nat) (p : PendingEntity), (k, p) ∈ tokens → ∃ b : CommandBuffer,
    buffers[k]? = some b ∧ p.buffer = b.id ∧ p.index.toNat < b.commands.countP Command.isSpawn

namespace Tidy

variable {buffers : List CommandBuffer} {tokens : List (Nat × PendingEntity)} {k : Nat}
  {b b' : CommandBuffer}

theorem nil : Tidy [] [] := ⟨nofun, nofun, nofun, nofun⟩

theorem create (h : Tidy buffers tokens) (hroom : buffers.length + 1 < 0x100000000) :
    Tidy (buffers ++ [.empty (UInt32.ofNat (buffers.length + 1))]) tokens := by
  have hnew : ∀ (k : Nat) (b : CommandBuffer),
      (buffers ++ [.empty (UInt32.ofNat (buffers.length + 1))])[k]? = some b →
      buffers[k]? = some b ∨ k = buffers.length ∧ b = .empty (UInt32.ofNat (k + 1)) := by
    intro k b hk
    rw [List.getElem?_append] at hk
    split at hk
    · exact .inl hk
    · obtain ⟨hlt, rfl⟩ := List.getElem?_eq_some_iff.1 hk
      have hk : k = buffers.length := by
        simp at hlt
        omega
      exact .inr ⟨hk, by simp [hk]⟩
  refine ⟨fun k b hk => ?_, fun k b hk => ?_, fun k b hk => ?_, fun k p hp => ?_⟩
  · obtain hk | ⟨rfl, rfl⟩ := hnew k b hk
    · exact h.ids k b hk
    · exact UInt32.toNat_ofNat_of_lt' hroom
  · obtain hk | ⟨rfl, rfl⟩ := hnew k b hk
    · exact h.spawns k b hk
    · rfl
  · obtain hk | ⟨rfl, rfl⟩ := hnew k b hk
    · exact h.ordered k b hk
    · trivial
  · obtain ⟨b, hb, hp⟩ := h.tokens k p hp
    exact ⟨b, by rw [List.getElem?_append_left (List.getElem?_eq_some_iff.1 hb).1, hb], hp⟩

theorem set (h : Tidy buffers tokens) (hb : buffers[k]? = some b) (hid : b'.id = b.id)
    (hspawns : b'.spawns.toNat = b'.commands.countP Command.isSpawn)
    (hordered : Command.Ordered b.id 0 b'.commands)
    (hle : b.commands.countP Command.isSpawn ≤ b'.commands.countP Command.isSpawn) :
    Tidy (buffers.set k b') tokens := by
  have hk := (List.getElem?_eq_some_iff.1 hb).1
  have hset : ∀ (j : Nat) (x : CommandBuffer), (buffers.set k b')[j]? = some x →
      j = k ∧ x = b' ∨ buffers[j]? = some x := by
    intro j x hj
    rw [List.getElem?_set] at hj
    split at hj
    · next hkj =>
      subst hkj
      exact .inl ⟨rfl, by simpa [hk] using hj.symm⟩
    · exact .inr hj
  refine ⟨fun j x hj => ?_, fun j x hj => ?_, fun j x hj => ?_, fun j p hp => ?_⟩
  · obtain ⟨rfl, rfl⟩ | hj := hset j x hj
    · rw [hid]
      exact h.ids _ b hb
    · exact h.ids j x hj
  · obtain ⟨rfl, rfl⟩ | hj := hset j x hj
    · exact hspawns
    · exact h.spawns j x hj
  · obtain ⟨rfl, rfl⟩ | hj := hset j x hj
    · rwa [hid]
    · exact h.ordered j x hj
  · obtain ⟨x, hx, hbuffer, hlt⟩ := h.tokens j p hp
    by_cases hj : k = j
    · subst hj
      cases hb.symm.trans hx
      exact ⟨b', List.getElem?_set_self hk, hbuffer.trans hid.symm, Nat.lt_of_lt_of_le hlt hle⟩
    · exact ⟨x, by rw [List.getElem?_set_ne hj, hx], hbuffer, hlt⟩

theorem spawn (h : Tidy buffers tokens) (hb : buffers[k]? = some b)
    (hroom : b.commands.countP Command.isSpawn + 1 < 0x100000000) :
    Tidy (buffers.set k b.spawn.2) (tokens ++ [(k, b.spawn.1)]) := by
  have hspawns := h.spawns k b hb
  have hcount : b.spawn.2.commands.countP Command.isSpawn =
      b.commands.countP Command.isSpawn + 1 := by
    simp [CommandBuffer.spawn, Command.isSpawn]
  have hnext : b.spawn.2.spawns.toNat = b.spawn.2.commands.countP Command.isSpawn := by
    rw [hcount, ← hspawns, CommandBuffer.spawn, UInt32.toNat_add]
    exact Nat.mod_eq_of_lt (by rw [hspawns]; exact hroom)
  have hordered : Command.Ordered b.id 0 b.spawn.2.commands :=
    Command.ordered_append.2 ⟨h.ordered k b hb, nofun, trivial⟩
  have hset : Tidy (buffers.set k b.spawn.2) tokens := h.set hb rfl hnext hordered (by omega)
  refine ⟨hset.ids, hset.spawns, hset.ordered, fun j p hp => ?_⟩
  obtain hp | hp := List.mem_append.1 hp
  · exact hset.tokens j p hp
  · cases List.mem_singleton.1 hp
    refine ⟨b.spawn.2, List.getElem?_set_self (List.getElem?_eq_some_iff.1 hb).1, rfl, ?_⟩
    rw [hcount, ← hspawns]
    exact Nat.lt_succ_self _

theorem place_eq {j : Nat} {p : PendingEntity} (h : Tidy buffers tokens) (hb : buffers[k]? = some b)
    (hp : (j, p) ∈ tokens) : p.buffer = b.id ↔ j = k := by
  obtain ⟨x, hx, hbuffer, -⟩ := h.tokens j p hp
  have hids := h.ids k b hb
  have hidx := h.ids j x hx
  rw [hbuffer]
  constructor
  · intro heq
    rw [heq] at hidx
    omega
  · intro hj
    subst hj
    cases hb.symm.trans hx
    rfl

theorem record {c : Command} (h : Tidy buffers tokens) (hb : buffers[k]? = some b)
    (hc : c.isSpawn = false) (hp : ∀ p, .pending p ∈ c.targets → ∃ j, (j, p) ∈ tokens) :
    Tidy (buffers.set k (b.record c)) tokens := by
  have hrecord : b.record c = { b with commands := b.commands ++ [c] } := by
    cases c with
    | spawn => cases hc
    | _ => rfl
  rw [hrecord]
  have hcount : (b.commands ++ [c]).countP Command.isSpawn = b.commands.countP Command.isSpawn := by
    simp [hc]
  refine h.set hb rfl ((h.spawns k b hb).trans hcount.symm)
    (Command.ordered_append.2 ⟨h.ordered k b hb, fun p ht hbuffer => ?_, trivial⟩)
    (Nat.le_of_eq hcount.symm)
  obtain ⟨j, hj⟩ := hp p ht
  obtain rfl := (h.place_eq hb hj).1 hbuffer
  obtain ⟨x, hx, -, hlt⟩ := h.tokens _ p hj
  cases hb.symm.trans hx
  omega

end Tidy

theorem Recording.tidy {buffers : List CommandBuffer} {tokens : List (Nat × PendingEntity)}
    (h : Recording buffers tokens) : Tidy buffers tokens := by
  induction h with
  | nil => exact .nil
  | create _ hroom ih => exact ih.create hroom
  | spawn _ hb hroom ih => exact ih.spawn hb hroom
  | record c _ hb hc hp ih => exact ih.record hb hc hp

/-! ### The whole buffer -/

/-- What comes of a command after `n` spawns, in the buffer in place `k`. All spawns of this buffer
make the entities `es`. -/
structure CommandActs (tokens : List (Nat × PendingEntity)) (k : Nat) (buffer : UInt32)
    (es : List Entity) (w : World) (n : Nat) (c : Command) : Prop where
  spawned : c = .spawn → es[n]? = some w.spawn.1
  own : (∀ p, .pending p ∈ c.targets → (k, p) ∈ tokens) →
    ∀ i, (w.direct buffer es c).1 ≠ .error (.foreignPending i)
  foreign : ∀ j p, j ≠ k → (j, p) ∈ tokens → .pending p ∈ c.targets →
    ∃ i, (w.direct buffer es c).1 = .error (.foreignPending i)
  failed : ∀ err, (w.direct buffer es c).1 = .error err →
    (w.direct buffer es c).2 = w.note c.dropEvents

structure ActsDirectly (tokens : List (Nat × PendingEntity)) (k : Nat) (w : World)
    (b : CommandBuffer) : Prop where
  world : (w.directAll b.id (w.applyCommands b).1.spawned b.commands).2 = (w.applyCommands b).2
  outcomes : (w.directAll b.id (w.applyCommands b).1.spawned b.commands).1 =
    w.outcomes b.id [] b.commands
  spawned : (w.applyCommands b).1.spawned = (w.outcomes b.id [] b.commands).flatMap Outcome.entities
  applied : (w.applyCommands b).1.applied = (w.outcomes b.id [] b.commands).countP Outcome.isOk
  errors : (w.applyCommands b).1.errors = (w.outcomes b.id [] b.commands).filterMap Outcome.error?
  total : (w.applyCommands b).1.applied + (w.applyCommands b).1.errors.length = b.commands.length
  each : ∀ before c after, b.commands = before ++ c :: after →
    CommandActs tokens k b.id (w.applyCommands b).1.spawned
      (w.directAll b.id (w.applyCommands b).1.spawned before).2 (before.countP Command.isSpawn) c

theorem Outcome.countP_add_length (outcomes : List Outcome) :
    outcomes.countP Outcome.isOk + (outcomes.filterMap Outcome.error?).length =
      outcomes.length := by
  induction outcomes with
  | nil => rfl
  | cons r rest ih =>
    cases r with
    | ok made =>
      have hok : Outcome.isOk (.ok made) = true := rfl
      rw [List.countP_cons_of_pos hok, List.filterMap_cons_none rfl, List.length_cons]
      omega
    | error err =>
      have hok : ¬ Outcome.isOk (.error err) = true := nofun
      have herr : Outcome.error? (.error err) = some err := rfl
      rw [List.countP_cons_of_neg hok, List.filterMap_cons_some herr, List.length_cons,
        List.length_cons]
      omega

variable {buffers : List CommandBuffer} {tokens : List (Nat × PendingEntity)} {k : Nat}
  {b : CommandBuffer} {w : World} {es : List Entity} {before after : List Command} {c : Command}

theorem Tidy.commandActs (h : Tidy buffers tokens) (hb : buffers[k]? = some b)
    (hsplit : b.commands = before ++ c :: after)
    (hes : es = (w.directAll b.id es b.commands).1.flatMap Outcome.entities) :
    CommandActs tokens k b.id es (w.directAll b.id es before).2
      (before.countP Command.isSpawn) c := by
  have hordered := h.ordered k b hb
  have hcount := w.length_entities_directAll b.id es before
  rw [hsplit, Command.ordered_append, Nat.zero_add] at hordered
  rw [hsplit, World.directAll_append, World.directAll, List.flatMap_append,
    List.flatMap_cons] at hes
  refine ⟨fun hc => ?_, fun hown => World.direct_ne_foreign fun p hp => ?_,
    fun j p hj hmem hp => ?_, fun err => World.direct_of_error⟩
  · subst hc
    have hat := congrArg (fun l : List Entity => l[before.countP Command.isSpawn]?) hes
    rw [List.getElem?_append_right (Nat.le_of_eq hcount), hcount, Nat.sub_self] at hat
    exact hat
  · have hbuffer := (h.place_eq hb (hown p hp)).2 rfl
    have hlt := hordered.2.1 p hp hbuffer
    have hle := congrArg List.length hes
    rw [List.length_append, hcount] at hle
    exact ⟨hbuffer, by omega⟩
  · exact World.direct_eq_foreign hp fun hbuffer => hj ((h.place_eq hb hmem).1 hbuffer)

theorem Recording.actsDirectly (h : Recording buffers tokens) (hb : buffers[k]? = some b)
    (w : World) : ActsDirectly tokens k w b := by
  have hreport : (w.applyCommands b).1 = _ := w.applyAll_fst b.id .empty b.commands
  simp only [CommandReport.empty, List.nil_append, Nat.zero_add] at hreport
  have hspawned : (w.applyCommands b).1.spawned =
      (w.outcomes b.id [] b.commands).flatMap Outcome.entities := by rw [hreport]
  have hall : w.directAll b.id (w.applyCommands b).1.spawned b.commands =
      (w.outcomes b.id [] b.commands, (w.applyCommands b).2) :=
    World.directAll_eq .empty hspawned (h.tidy.ordered k b hb)
  obtain ⟨houtcomes, hworld⟩ := Prod.ext_iff.1 hall
  dsimp only at houtcomes hworld
  refine ⟨hworld, houtcomes, hspawned, by rw [hreport], by rw [hreport], ?_,
    fun before c after hsplit => h.tidy.commandActs hb hsplit ?_⟩
  · rw [hreport, Outcome.countP_add_length, ← houtcomes, World.length_directAll]
  · rw [houtcomes, hspawned]

/-- The second buffer uses the token of its own spawn and that of the first one. -/
def drafts : List CommandBuffer :=
  [⟨1, [.spawn], 1⟩,
    ⟨2, [.spawn, .addPair (.pending ⟨2, 0⟩) ⟨0⟩ (.pending ⟨2, 0⟩), .despawn (.pending ⟨1, 0⟩)], 1⟩]

theorem recording_drafts : Recording drafts [(0, ⟨1, 0⟩), (1, ⟨2, 0⟩)] := by
  have hcreated : Recording [.empty 1, .empty 2] [] :=
    .create (.create .nil (by decide)) (by decide)
  have hfirst : Recording [⟨1, [.spawn], 1⟩, .empty 2] [(0, ⟨1, 0⟩)] :=
    .spawn (k := 0) hcreated rfl (by decide)
  have hsecond : Recording [⟨1, [.spawn], 1⟩, ⟨2, [.spawn], 1⟩] [(0, ⟨1, 0⟩), (1, ⟨2, 0⟩)] :=
    .spawn (k := 1) hfirst rfl (by decide)
  have hown : Recording
      [⟨1, [.spawn], 1⟩, ⟨2, [.spawn, .addPair (.pending ⟨2, 0⟩) ⟨0⟩ (.pending ⟨2, 0⟩)], 1⟩]
      [(0, ⟨1, 0⟩), (1, ⟨2, 0⟩)] :=
    .record (k := 1) (.addPair (.pending ⟨2, 0⟩) ⟨0⟩ (.pending ⟨2, 0⟩)) hsecond rfl rfl
      (by simp [Command.targets])
  exact .record (k := 1) (.despawn (.pending ⟨1, 0⟩)) hown rfl rfl (by simp [Command.targets])

theorem actsDirectly_drafts :
    Recording drafts [(0, ⟨1, 0⟩), (1, ⟨2, 0⟩)] ∧ drafts[1]? = some drafts[1] ∧
    (World.new.applyCommands drafts[1]).1 = ⟨[⟨0, 0⟩], 2, [.foreignPending 0]⟩ ∧
    ActsDirectly [(0, ⟨1, 0⟩), (1, ⟨2, 0⟩)] 1 World.new drafts[1] :=
  ⟨recording_drafts, rfl, by decide +kernel, recording_drafts.actsDirectly rfl World.new⟩

end EntityWorld
