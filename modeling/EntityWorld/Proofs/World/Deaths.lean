import EntityWorld.Proofs.Handles
import EntityWorld.Proofs.World.Cascade
set_option autoImplicit false

/-!
Who hears of deaths. Whatever is done with a world, the map of host objects hears of exactly the
handles that are released on the way, each time that one is.
-/
namespace EntityWorld

namespace Allocator

variable {a : Allocator} {e : Entity} {acts : List Act}

def freed (a : Allocator) : Act → List Entity
  | .allocate => []
  | .deallocate e => if a.isAlive e then [e] else []
  | .clear => a.live.reverse

def departed (a : Allocator) : List Act → List Entity
  | [] => []
  | x :: rest => (a.act x).departed rest ++ a.freed x

theorem departed_append (a : Allocator) (before after : List Act) :
    a.departed (before ++ after) = (a.run before).departed after ++ a.departed before := by
  induction before generalizing a with
  | nil => exact (List.append_nil _).symm
  | cons x rest ih =>
    rw [List.cons_append, departed, departed, ih, List.append_assoc]
    rfl

theorem isAlive_act (h : a.WellFormed) {x : Act} (hsize : (a.act x).slots.size < 0xffffffff)
    (he : a.isAlive e = true) : (a.act x).isAlive e = true ∨ e ∈ a.freed x := by
  cases x with
  | allocate =>
    have hroom : a.HasRoom := fun _ => Nat.lt_of_le_of_lt a.size_le_size_allocate hsize
    exact .inl ((isAlive_allocate h hroom e).2 (.inr he))
  | deallocate d =>
    by_cases hd : a.isAlive d = true
    · by_cases hed : e = d
      · exact .inr (by rw [freed, if_pos hd, hed]; exact List.mem_singleton_self d)
      · exact .inl ((isAlive_deallocate hd e).2 ⟨he, hed⟩)
    · refine .inl ?_
      rw [act, deallocate_of_not_isAlive (Bool.eq_false_iff.2 hd)]
      exact he
  | clear => exact .inr (List.mem_reverse.2 ((mem_live h).2 he))

theorem WellFormed.act (h : a.WellFormed) {x : Act} (hsize : (a.act x).slots.size < 0xffffffff) :
    (a.act x).WellFormed := by
  cases x with
  | allocate => exact h.allocate fun _ => Nat.lt_of_le_of_lt a.size_le_size_allocate hsize
  | deallocate d => exact h.deallocate d
  | clear => exact h.clear

theorem isAlive_run (h : a.WellFormed) (hsize : (a.run acts).slots.size < 0xffffffff)
    (he : a.isAlive e = true) : (a.run acts).isAlive e = true ∨ e ∈ a.departed acts := by
  induction acts generalizing a with
  | nil => exact .inl he
  | cons x rest ih =>
    have hx : (a.act x).slots.size < 0xffffffff :=
      Nat.lt_of_le_of_lt (size_le_size_run (a.act x) rest) hsize
    obtain hlive | hfreed := isAlive_act h hx he
    · exact (ih (h.act hx) hsize hlive).imp_right (List.mem_append_left _)
    · exact .inr (List.mem_append_right _ hfreed)

end Allocator

def Operation.Ordinary : Operation → Prop
  | .listen s | .takeHeard s => s ≠ .identityMap
  | _ => True

namespace World

open Allocator (Act)

variable {u v w : World} {e : Entity} {acts acts' : List Act}

def ears (w : World) : List Listener := w.listeners.filter fun l => l.subscriber = .identityMap

theorem ears_of_listeners {f : List Entity → List Entity}
    (h : v.listeners = w.listeners.map fun l => { l with heard := f l.heard }) :
    v.ears = w.ears.map fun l => { l with heard := f l.heard } := by
  rw [ears, h, List.filter_map]
  rfl

/-- On the way from `w` to `v` the handles do the acts, and the map hears of those released. -/
structure Tells (w v : World) (acts : List Act) : Prop where
  entities : v.entities = w.entities.run acts
  ears : v.ears = w.ears.map fun l => { l with heard := w.entities.departed acts ++ l.heard }

namespace Tells

theorem still (he : v.entities = w.entities) (hl : v.ears = w.ears) : w.Tells v [] :=
  ⟨he, by rw [hl]; exact (List.map_id' _).symm⟩

theorem trans (h : u.Tells v acts) (h' : v.Tells w acts') : u.Tells w (acts ++ acts') := by
  refine ⟨?_, ?_⟩
  · rw [Allocator.run_append, ← h.entities, h'.entities]
  · rw [h'.ears, h.ears, List.map_map, Allocator.departed_append, h.entities]
    refine List.map_congr_left fun l _ => ?_
    simp only [Function.comp_apply, List.append_assoc]

theorem isAlive (h : w.Tells v acts) (hw : w.WellFormed) (hf : v.Fits) (he : w.isAlive e = true) :
    v.isAlive e = true ∨ e ∈ w.entities.departed acts := by
  have hslots := hf.slots
  rw [World.isAlive, h.entities]
  rw [h.entities] at hslots
  exact Allocator.isAlive_run hw.entities hslots he

end Tells

structure Informs (w v : World) : Prop where
  leads : w.Leads v
  tells : w.WellFormed → v.Fits → ∃ acts, w.Tells v acts

theorem Informs.of_same (hr : v.registry = w.registry) (he : v.entities = w.entities)
    (hs : v.storage = w.storage) (hl : v.slot? = w.slot?) (hears : v.ears = w.ears) :
    w.Informs v :=
  ⟨.of_same hr he hs hl, fun _ _ => ⟨[], .still he hears⟩⟩

theorem Becomes.tells {c : Contents} (h : w.Becomes c v) : w.Tells v [] :=
  .still h.entities (by rw [ears, h.listeners]; rfl)

theorem spawn_tells (w : World) : w.Tells w.spawn.2 [.allocate] := by
  have hsame : w.spawn.2.entities = w.entities.allocate.2 ∧ w.spawn.2.listeners = w.listeners := by
    unfold spawn
    simp only
    split <;> exact ⟨rfl, rfl⟩
  exact ⟨hsame.1, by rw [ears, hsame.2]; exact (List.map_id' _).symm⟩

theorem Informs.trans (h : u.Informs v) (h' : v.Informs w) : u.Informs w := by
  refine ⟨h.leads.trans h'.leads, fun hu hf => ?_⟩
  have hfit := h'.leads.grows.fits hf
  obtain ⟨acts, hacts⟩ := h.tells hu hfit
  obtain ⟨acts', hacts'⟩ := h'.tells (h.leads.keeps hu hfit) hf
  exact ⟨acts ++ acts', hacts.trans hacts'⟩

theorem despawnOne_tells (h : w.WellFormed) (he : w.isAlive e = true) :
    w.Tells (w.despawnOne e) [.deallocate e] := by
  have hends := h.despawnOne he
  have hfreed : w.entities.departed [.deallocate e] = [e] := if_pos he
  refine ⟨hends.entities, ?_⟩
  rw [hfreed]
  exact ears_of_listeners hends.listeners

theorem wide_informs : Wide Informs where
  refl _ := .of_same rfl rfl rfl rfl rfl
  trans := .trans
  setName w e name := by
    obtain ⟨n, k, heq⟩ := setName_eq w e name
    rw [heq]
    exact .of_same rfl rfl rfl rfl rfl
  events _ _ := .of_same rfl rfl rfl rfl rfl
  spawn w := ⟨spawn_leads w, fun _ _ => ⟨_, spawn_tells w⟩⟩
  add w e id := ⟨add_leads w e id, fun hw hf =>
    ⟨[], (hw.add ((add_grows w e id).fits hf) e id).becomes.tells⟩⟩
  remove w e id := ⟨remove_leads w e id, fun hw hf =>
    ⟨[], (hw.remove ((remove_grows w e id).fits hf) e id).becomes.tells⟩⟩
  despawnOne he := ⟨throughout_leads.despawnOne he, fun hw _ => ⟨_, despawnOne_tells hw he⟩⟩
  registerType w d := by
    refine ⟨registerType_leads w d, fun _ _ => ⟨[], ?_⟩⟩
    unfold registerType
    split <;> exact .still rfl rfl
  put w e id v how := ⟨put_leads w e id v how, fun hw hf =>
    ⟨[], (hw.put ((put_grows w e id v how).fits hf) e id v how).becomes.tells⟩⟩
  writeTable id ha htype hrows :=
    ⟨write_table_leads ha id htype hrows, fun _ _ => ⟨[], .still rfl rfl⟩⟩

theorem listeners_foldl_announce (live : List Entity) (w : World) :
    (live.foldl announce w).listeners =
      w.listeners.map fun l => { l with heard := live.reverse ++ l.heard } := by
  induction live generalizing w with
  | nil => exact (List.map_id' _).symm
  | cons e rest ih =>
    rw [List.foldl_cons, ih, announce, List.map_map]
    refine List.map_congr_left fun l _ => ?_
    simp only [Function.comp_apply, List.reverse_cons, List.append_assoc, List.singleton_append]

theorem shutdown_tells (w : World) : w.Tells w.shutdown [.clear] := by
  refine ⟨?_, ears_of_listeners ?_⟩
  · obtain ⟨heard, heq⟩ := shutdown_eq w
    rw [heq]
    rfl
  · exact listeners_foldl_announce _ _

theorem ears_listen {s : Subscriber} (hs : s ≠ .identityMap) (w : World) :
    (w.listen s).ears = w.ears := by
  have hnone : [(⟨s, []⟩ : Listener)].filter (fun l => l.subscriber = .identityMap) = [] := by
    rw [List.filter_singleton, decide_eq_false hs, cond_false]
  rw [ears, World.listen, List.filter_append, hnone, List.append_nil]
  rfl

theorem ears_takeHeard (s : Subscriber) (w : World) : (w.takeHeard s).2.ears =
    if s = .identityMap then w.ears.map fun l => { l with heard := [] } else w.ears := by
  have hsubscriber (l : Listener) :
      (if l.subscriber = s then { l with heard := [] } else l).subscriber = l.subscriber := by
    split <;> rfl
  have hears : (w.takeHeard s).2.ears =
      w.ears.map fun l => if l.subscriber = s then { l with heard := [] } else l := by
    simp only [ears, takeHeard, List.filter_map, Function.comp_def, hsubscriber]
  have hmem : ∀ l ∈ w.ears, l.subscriber = .identityMap := fun l hl =>
    of_decide_eq_true (List.mem_filter.1 hl).2
  rw [hears]
  split
  · next hs => exact List.map_congr_left fun l hl => if_pos ((hmem l hl).trans hs.symm)
  · next hs =>
    refine (List.map_congr_left fun l hl => if_neg fun heq => ?_).trans (List.map_id' _)
    exact hs (heq.symm.trans (hmem l hl))

theorem WellFormed.perform_tells (h : w.WellFormed) {op : Operation} (hop : op.Ordinary)
    (hf : (w.perform op).Fits) : ∃ acts, w.Tells (w.perform op) acts := by
  have hdeaf (hne : op ≠ .shutdown) (hd : op.Deaf) : ∃ acts, w.Tells (w.perform op) acts :=
    (wide_informs.perform w hne hd).tells h hf
  cases op with
  | shutdown => exact ⟨_, shutdown_tells w⟩
  | listen s => exact ⟨[], .still rfl (ears_listen hop w)⟩
  | takeHeard s => exact ⟨[], .still rfl ((ears_takeHeard s w).trans (if_neg hop))⟩
  | _ => exact hdeaf nofun trivial

/-! ### What the map has not taken note of -/

variable {heard : List Entity}

/-- The deaths that the map of host objects has not taken note of yet, in order. -/
def deaths (w : World) : List Entity := (w.takeHeard .identityMap).1

theorem deaths_of_ears (h : w.ears = [⟨.identityMap, heard⟩]) : w.deaths = heard.reverse := by
  have hears : w.deaths = w.ears.flatMap fun l => l.heard.reverse := rfl
  rw [hears, h, List.flatMap_singleton]

theorem ears_takeHeard_self (h : w.ears = [⟨.identityMap, heard⟩]) :
    (w.takeHeard .identityMap).2.ears = [⟨.identityMap, []⟩] := by
  rw [ears_takeHeard, if_pos rfl, h]
  rfl

theorem takeHeard_of_silent (h : w.ears = [⟨.identityMap, []⟩]) :
    w.takeHeard .identityMap = ([], w) := by
  have hlisteners : (w.listeners.map fun l =>
      if l.subscriber = .identityMap then { l with heard := [] } else l) = w.listeners := by
    refine (List.map_congr_left fun l hl => ?_).trans (List.map_id' _)
    split
    · next hs =>
      have hmem : l ∈ w.ears := List.mem_filter.2 ⟨hl, decide_eq_true hs⟩
      rw [h, List.mem_singleton] at hmem
      rw [hmem]
    · rfl
  refine Prod.ext (deaths_of_ears h) ?_
  rw [takeHeard, hlisteners]

theorem WellFormed.not_isAlive_despawn (h : w.WellFormed) (hf : (w.despawn e).2.Fits) :
    (w.despawn e).2.isAlive e = false := by
  rw [Bool.eq_false_iff]
  intro hlive
  by_cases he : w.isAlive e = true
  · exact (((h.despawn_cascadeOf he hf).died e).1 hlive).2 .self
  · rw [despawn, if_neg he] at hlive
    exact he hlive

theorem takeHeard_leads (w : World) (s : Subscriber) : w.Leads (w.takeHeard s).2 :=
  throughout_leads.takeHeard w s

end World
end EntityWorld
