import EntityWorld.Proofs.Replication.Arrival
import EntityWorld.Proofs.Replication.Canonical
set_option autoImplicit false

/-!
From world to world. The snapshot of an entity gives another entity, in a world of its own with
types in an order of its own, the components that are replicated, with their values. There is one
unless a payload is longer than its length field can tell.
-/
namespace EntityWorld

/-- `d'` is the type with the path of `d` on another peer, and reads the value `x` as `d` writes
it. -/
structure TypeDescriptor.Reads (d' d : TypeDescriptor) (x : Value) : Prop where
  path : d'.path = d.path
  replicable : d'.flags.replicable = true
  isTag : d'.isTag = d.isTag
  codec : d.isTag = false → ∃ c c' bs, d.codec = some c ∧ d'.codec = some c' ∧
    c.encode x = .ok bs ∧ c'.decode bs = .ok x

namespace TypeDescriptor

variable {d d' : TypeDescriptor} {x : Value} {bs : Bytes}

def carried (d : TypeDescriptor) (x : Value) : Option Value := if d.isTag then none else some x

theorem Reads.sends (h : d'.Reads d x) : ∃ bs, d.Sends x bs := by
  cases htag : d.isTag with
  | true => exact ⟨[], .tag htag⟩
  | false =>
    obtain ⟨c, -, bs, hcodec, -, hencode, -⟩ := h.codec htag
    exact ⟨bs, .value htag hcodec hencode⟩

theorem Reads.brings (h : d'.Reads d x) (hs : d.Sends x bs) : d'.Brings bs (d.carried x) := by
  unfold carried
  cases hs with
  | tag htag =>
    rw [if_pos htag]
    exact .tag (h.isTag.trans htag)
  | value htag hcodec hencode =>
    obtain ⟨c, c', bs', hc, hc', hwrite, hread⟩ := h.codec htag
    obtain rfl := Option.some.inj (hcodec.symm.trans hc)
    obtain rfl := Except.ok.inj (hencode.symm.trans hwrite)
    rw [htag, if_neg Bool.false_ne_true]
    exact .value (h.isTag.trans htag) hc' hread

end TypeDescriptor

namespace World

variable {a b v : World} {e x : Entity} {h k : TypeHandle} {d d' : TypeDescriptor} {u : Value}
variable {p : Replicator} {r : Record} {records l : List Record} {report : ApplyReport}
variable {bytes : Bytes}

/-- `b` has a type for each replicable component of `e`, and reads the value that `e` has. -/
def Understands (b a : World) (e : Entity) : Prop :=
  ∀ d u, a.Shares e d u → ∃ k d', b.descriptor? k = some d' ∧ d'.Reads d u

/-- `k` is in `b` what `h` is in `a`, where it is a replicable component of `e`. -/
def Counterpart (a : World) (e : Entity) (b : World) (h k : TypeHandle) : Prop :=
  ∃ d d', a.descriptor? h = some d ∧ d.flags.replicable = true ∧ a.Carries e (Id.component h) ∧
    b.descriptor? k = some d' ∧ d'.path = d.path

/-- The components of `e` have been taken over by `x`: `b` has become `v`, as is reported. -/
structure Reproduced (a : World) (e : Entity) (b : World) (x : Entity) (report : ApplyReport)
    (v : World) : Prop where
  skipped : report.skipped = []
  keptLocal : report.keptLocal = []
  nodup : report.applied.Nodup
  applied : ∀ k, k ∈ report.applied ↔ ∃ h, a.Counterpart e b h k
  carries : ∀ h k, a.Counterpart e b h k → v.Carries x (Id.component k)
  peek : ∀ h k d, a.Counterpart e b h k → a.descriptor? h = some d → d.isTag = false →
    v.peek x (Id.component k) = a.peek e (Id.component h)
  others : ∀ i, (∀ h k, a.Counterpart e b h k → i ≠ Id.component k) → v.peek x i = b.peek x i
  entities : ∀ y, y ≠ x → v.contents y = b.contents y
  becomes : b.Becomes v.contents v

theorem Typed.eq_of_path (hb : b.Typed) (hd : b.descriptor? h = some d)
    (hd' : b.descriptor? k = some d')
    (hpath : d.path = d'.path) : h = k := by
  have hi := hb.indexed
  have hfound := hi.found h d hd
  rw [hi.hashed h d hd, hpath, ← hi.hashed k d' hd', hi.found k d' hd'] at hfound
  exact (Option.some.inj hfound).symm

theorem Ships.accepts (hs : a.Ships e r d u) (ha : a.Reachable) (hb : b.Reachable)
    (hd : b.descriptor? k = some d') (hr : d'.Reads d u) :
    b.registry.Accepts r d' (d.carried u) ∧ d'.handle = k := by
  have hk : d'.handle = k := hb.wellFormed.registry.numbered k d' hd
  refine ⟨⟨hk ▸ hd, ?_, hr.replicable, hr.brings hs.sends⟩, hk⟩
  rw [hs.typeId, ha.typed.indexed.hashed _ _ hs.type, hb.typed.indexed.hashed _ _ hd, hr.path]

theorem Counterpart.shares (hc : a.Counterpart e b h k) (ha : a.Reachable) :
    ∃ d u, a.descriptor? h = some d ∧ d.handle = h ∧ a.Shares e d u := by
  obtain ⟨d, d', hd, hreplicable, hcarries, -, -⟩ := hc
  have hh : d.handle = h := ha.wellFormed.registry.numbered h d hd
  obtain ⟨u, hpeek⟩ := Option.isSome_iff_exists.1 hcarries
  exact ⟨d, u, hd, hh, hh ▸ hd, hreplicable, hh ▸ hpeek⟩

/-- What a snapshot tells of `e` is all that `b` has to know of its components. -/
structure Conveys (a : World) (e : Entity) (b : World) (records : List Record) : Prop where
  accepts : ∀ r ∈ records, ∃ d' u', b.registry.Accepts r d' u'
  counterpart : ∀ r ∈ records, ∀ d' u', b.registry.Accepts r d' u' →
    ∃ h, a.Counterpart e b h d'.handle
  complete : ∀ h k, a.Counterpart e b h k → ∃ r ∈ records, ∃ d d' u, a.descriptor? h = some d ∧
    a.peek e (Id.component h) = some u ∧ b.registry.Accepts r d' (d.carried u) ∧ d'.handle = k

theorem Understands.sends (hu : b.Understands a e) (hs : a.Shares e d u) : ∃ bs, d.Sends u bs := by
  obtain ⟨_, _, _, hreads⟩ := hu d u hs
  exact hreads.sends

theorem Gathers.conveys (hg : a.Gathers e a.replicableTypes records) (ha : a.Reachable)
    (hb : b.Reachable) (hu : b.Understands a e) : Conveys a e b records := by
  have hships : ∀ r ∈ records, ∃ d u, a.Ships e r d u := by
    intro r hr
    obtain ⟨d, u, hsent, -⟩ := hg.sound r hr
    exact ⟨d, u, hsent.ships (hu.sends hsent.toShares)⟩
  refine ⟨fun r hr => ?_, fun r hr d' u' hacc => ?_, fun h k hpart => ?_⟩
  · obtain ⟨d, u, hs⟩ := hships r hr
    obtain ⟨k, d', hd', hreads⟩ := hu d u hs.toShares
    exact ⟨d', _, (hs.accepts ha hb hd' hreads).1⟩
  · obtain ⟨d, u, hs⟩ := hships r hr
    obtain ⟨k, d'', hd'', hreads⟩ := hu d u hs.toShares
    obtain ⟨rfl, -⟩ := hacc.unique (hs.accepts ha hb hd'' hreads).1 hb.typed.indexed
    refine ⟨d.handle, d, d', hs.type, hs.replicable, ?_, hacc.type, hreads.path⟩
    rw [Carries, hs.peek, Option.isSome_some]
  · obtain ⟨d, u, hd, rfl, hshares⟩ := hpart.shares ha
    obtain ⟨d₀, d', hd₀, -, -, hd', hpath⟩ := hpart
    obtain rfl := Option.some.inj (hd.symm.trans hd₀)
    obtain ⟨k', d'', hd'', hreads⟩ := hu d u hshares
    obtain rfl := hb.typed.eq_of_path hd'' hd' (hreads.path.trans hpath.symm)
    have hmem := (mem_replicableTypes ha.wellFormed).2 ⟨d, hd, hshares.replicable⟩
    obtain ⟨r, hr, hsent⟩ := hg.complete d u hshares hmem
    obtain ⟨hacc, hk⟩ := (hsent.ships hreads.sends).accepts ha hb hd'' hreads
    exact ⟨r, hr, d, d'', u, hd, hshares.peek, hacc, hk⟩

theorem Conveys.reproduced (hc : Conveys a e b l) (hi : b.registry.Indexed)
    (hn : (l.map Record.typeId).Nodup) (hbecomes : b.Becomes v.contents v)
    (harrived : Contents.Arrived b.registry x l b.contents v.contents) :
    Reproduced a e b x { applied := b.registry.addressed l } v := by
  have hbears (h k : TypeHandle) (hpart : a.Counterpart e b h k) : ∃ d u y,
      a.descriptor? h = some d ∧ a.peek e (Id.component h) = some u ∧
      v.peek x (Id.component k) = some y ∧ (d.isTag = false → y = u) := by
    obtain ⟨r, hr, d, d', u, hd, hpeek, hacc, rfl⟩ := hc.complete h k hpart
    obtain ⟨y, hy, hvalue⟩ := harrived.bears r hr d' _ hacc
    rw [value?_contents] at hy
    refine ⟨d, u, y, hd, hpeek, hy, fun htag => hvalue u ?_⟩
    rw [TypeDescriptor.carried, htag, if_neg Bool.false_ne_true]
  refine ⟨rfl, rfl, Registry.nodup_addressed hi hc.accepts hn, fun k => ?_, fun h k hpart => ?_,
    fun h k d hpart hd htag => ?_, fun i hno => ?_, fun y hy => ?_, hbecomes⟩
  · rw [Registry.mem_addressed hi hc.accepts]
    constructor
    · intro hex
      obtain ⟨r, hr, d', u', hacc, rfl⟩ := hex
      exact hc.counterpart r hr d' u' hacc
    · intro hex
      obtain ⟨h, hpart⟩ := hex
      obtain ⟨r, hr, d, d', u, -, -, hacc, hk⟩ := hc.complete h k hpart
      exact ⟨r, hr, d', _, hacc, hk⟩
  · obtain ⟨d, u, y, -, -, hy, -⟩ := hbears h k hpart
    rw [Carries, hy, Option.isSome_some]
  · obtain ⟨d₀, u, y, hd₀, hpeek, hy, hvalue⟩ := hbears h k hpart
    obtain rfl := Option.some.inj (hd.symm.trans hd₀)
    rw [hy, hpeek, hvalue htag]
  · rw [← value?_contents, ← value?_contents]
    refine harrived.others x i fun _ r hr d' u' hacc heq => ?_
    obtain ⟨h, hpart⟩ := hc.counterpart r hr d' u' hacc
    exact hno h d'.handle hpart heq
  · -- the maps of both worlds at `y` agree at every id, and are there or not together
    have hentry (i : Id) : v.contents.value? y i = b.contents.value? y i :=
      harrived.others y i fun heq => absurd heq hy
    have hthere := harrived.entities y
    unfold Contents.value? at hentry
    cases hv : v.contents y with
    | none =>
      rw [hv, Option.isSome_none, eq_comm, Option.isSome_eq_false_iff, Option.isNone_iff_eq_none]
        at hthere
      exact hthere.symm
    | some m =>
      rw [hv, Option.isSome_some, eq_comm] at hthere
      obtain ⟨m', hm'⟩ := Option.isSome_iff_exists.1 hthere
      rw [hm']
      simp only [hv, hm', Option.bind_some] at hentry
      exact congrArg some (funext hentry)

theorem apply_of_decode (hd : Wire.decode bytes = .ok l) (hx : v.isAlive x = true) :
    p.apply v x bytes = (.ok (Replicator.applyRecords x p v {} l).1,
      (Replicator.applyRecords x p v {} l).2) := by
  simp only [Replicator.apply, hd, hx, if_true]

theorem Becomes.applyRecords_again (hbecomes : b.Becomes v.contents v) (hi : b.registry.Indexed)
    (hx : b.isAlive x = true) (hp : ∀ k, p.hasLocalWrite x k = false)
    (hacc : ∀ r ∈ l, ∃ d' u', b.registry.Accepts r d' u') (hn : (l.map Record.typeId).Nodup)
    (harrived : Contents.Arrived b.registry x l b.contents v.contents) (hf : v.Fits) :
    ∃ v', Replicator.applyRecords x p v {} l = ({ applied := b.registry.addressed l }, p, v') ∧
      v'.contents = v.contents := by
  have hv := hbecomes.wellFormed
  have hiv : v.registry.Indexed := hbecomes.registry ▸ hi
  have hxv : v.isAlive x = true := by rw [hbecomes.isAlive, hx]
  have haccv : ∀ r ∈ l, ∃ d' u', v.registry.Accepts r d' u' := hbecomes.registry ▸ hacc
  have hcarries : ∀ r ∈ l, ∃ d' u', v.registry.Accepts r d' u' ∧
      v.Carries x (Id.component d'.handle) := by
    intro r hr
    obtain ⟨d', u', hr'⟩ := hacc r hr
    obtain ⟨y, hy, -⟩ := harrived.bears r hr d' u' hr'
    exact ⟨d', u', hbecomes.registry ▸ hr', carries_iff_value?.2 (by rw [hy]; rfl)⟩
  obtain ⟨v', hagain, -, harrived'⟩ := hv.applyRecords_arrived hiv hxv hp haccv hn
    (hv.applyRecords_fits hf hiv hxv hp hcarries {})
  rw [hbecomes.registry] at hagain harrived'
  exact ⟨v', hagain, harrived'.again harrived.bears⟩

theorem Reachable.exists_snapshotAll_iff (ha : a.Reachable) (he : a.isAlive e = true)
    (hsends : ∀ d u, a.Shares e d u → ∃ bs, d.Sends u bs) :
    (∃ bytes, (Replicator.snapshotAll a e).1 = .ok bytes) ↔
      ∀ d u bs, a.Shares e d u → d.Sends u bs → bs.length < 0x100000000 := by
  have hmem {d : TypeDescriptor} {u : Value} (hs : a.Shares e d u) :
      d.handle ∈ a.replicableTypes :=
    (mem_replicableTypes ha.wellFormed).2 ⟨d, hs.type, hs.replicable⟩
  refine (exists_snapshot_iff ha.wellFormed ha.typed.indexed).trans ⟨fun hall d u bs hs hbs => ?_,
    fun hshort => ⟨he, fun h => canSend_of_sends ha.wellFormed hsends, fun r d u hsent _ => ?_⟩⟩
  · exact hall.2.2 ⟨d.stableId, bs⟩ d u ⟨hs, rfl, hbs.encoding⟩ (hmem hs)
  · have hships := hsent.ships (hsends d u hsent.toShares)
    exact hshort d u r.payload hships.toShares hships.sends

/-- Applying the snapshot of an entity to another, in a world that knows the types, hands over
exactly the replicable components, and nothing else; applying it once more changes nothing. There is
a snapshot if and only if no payload is too long for its length field. -/
theorem Reachable.snapshot_reproduces (ha : a.Reachable) (hb : b.Reachable)
    (he : a.isAlive e = true) (hx : b.isAlive x = true) (hu : b.Understands a e)
    (hp : ∀ k, p.hasLocalWrite x k = false) :
    ((∃ bytes, (Replicator.snapshotAll a e).1 = .ok bytes) ↔
      ∀ d u bs, a.Shares e d u → d.Sends u bs → bs.length < 0x100000000) ∧
    ∀ bytes, (Replicator.snapshotAll a e).1 = .ok bytes → (p.apply b x bytes).2.2.Fits →
      ∃ report v v', p.apply b x bytes = (.ok report, p, v) ∧ Reproduced a e b x report v ∧
        p.apply v x bytes = (.ok report, p, v') ∧ v'.contents = v.contents := by
  refine ⟨ha.exists_snapshotAll_iff he fun d u => hu.sends, fun bytes hok hf => ?_⟩
  obtain ⟨-, records, hg, hencode⟩ := (snapshot_eq_ok_iff ha.wellFormed ha.typed.indexed).1 hok
  have hdecode := Wire.decode_of_encode hencode
  -- what arrives are the records in the order of their ids
  have hsorted := hg.of_perm (Wire.sortRecords_perm records)
  generalize Wire.sortRecords records = l at hdecode hsorted
  have hconveys := hsorted.conveys ha hb hu
  have hi := hb.typed.indexed
  rw [apply_of_decode hdecode hx] at hf
  obtain ⟨v, hfirst, hbecomes, harrived⟩ :=
    hb.wellFormed.applyRecords_arrived hi hx hp hconveys.accepts hsorted.nodup hf
  rw [hfirst] at hf
  obtain ⟨v', hagain, hsame⟩ :=
    hbecomes.applyRecords_again hi hx hp hconveys.accepts hsorted.nodup harrived hf
  refine ⟨_, v, v', ?_, hconveys.reproduced hi hsorted.nodup hbecomes harrived, ?_, hsame⟩
  · rw [apply_of_decode hdecode hx, hfirst]
    rfl
  · rw [apply_of_decode hdecode (by rw [hbecomes.isAlive, hx]), hagain]

/-! ### The knight on another peer -/

def spectator : World :=
  World.new.run [.registerType burning, .registerType hitPoints, .spawn, .spawn]

theorem reachable_spectator : spectator.Reachable := Reachable.new.run (by decide +kernel)

theorem understands_knight {n : UInt8} (ha : a.registry = battle.registry)
    (hb : b.registry = spectator.registry)
    (hvalue : a.peek ⟨0, 0⟩ (Id.component ⟨1⟩) = some (.plain [n, 0, 0, 0])) :
    b.Understands a ⟨0, 0⟩ := by
  intro d u hs
  obtain ⟨d₀, d₁, d₂, htypes, hfirst, hhealth, hburning⟩ : ∃ d₀ d₁ d₂ : TypeDescriptor,
      battle.registry.entries = [d₀, d₁, d₂] ∧ d₀ = Registry.freeze childOfDescription ⟨0⟩ ∧
        d₁ = Registry.freeze hitPoints ⟨1⟩ ∧ d₂ = Registry.freeze burning ⟨2⟩ :=
    ⟨_, _, _, rfl, rfl, rfl, rfl⟩
  have hmem : d ∈ a.registry.entries := List.mem_of_getElem? hs.type
  simp only [ha, htypes, List.mem_cons, List.not_mem_nil, or_false] at hmem
  have hpeek := hs.peek
  simp only [descriptor?, hb]
  obtain rfl | rfl | rfl := hmem
  · cases hfirst ▸ hs.replicable
  · rw [hhealth] at hpeek ⊢
    obtain rfl := Option.some.inj (hvalue.symm.trans hpeek)
    exact ⟨⟨2⟩, Registry.freeze hitPoints ⟨2⟩, rfl, rfl, rfl, rfl, fun _ =>
      ⟨_, _, [n, 0, 0, 0], rfl, rfl, rfl, rfl⟩⟩
  · rw [hburning]
    exact ⟨⟨1⟩, Registry.freeze burning ⟨1⟩, rfl, rfl, rfl, rfl, fun htag => by cases htag⟩

theorem understands_spectator : spectator.Understands battle ⟨0, 0⟩ :=
  understands_knight (n := 7) rfl rfl (by decide +kernel)

def newcomer : Replicator := .new .client AuthorityMode.preferLocal.policy

/-- The handles differ from side to side. -/
theorem snapshot_reproduces_battle :
    battle.isAlive ⟨0, 0⟩ = true ∧ spectator.isAlive ⟨1, 0⟩ = true ∧
    ∃ bytes report v, (Replicator.snapshotAll battle ⟨0, 0⟩).1 = .ok bytes ∧
      newcomer.apply spectator ⟨1, 0⟩ bytes = (.ok report, newcomer, v) ∧
      Reproduced battle ⟨0, 0⟩ spectator ⟨1, 0⟩ report v ∧
      v.peek ⟨1, 0⟩ (Id.component ⟨2⟩) = some (.plain [7, 0, 0, 0]) := by
  have he : battle.isAlive ⟨0, 0⟩ = true := by decide +kernel
  have hx : spectator.isAlive ⟨1, 0⟩ = true := by decide +kernel
  have hmarks : ∀ k, newcomer.hasLocalWrite ⟨1, 0⟩ k = false := fun _ => rfl
  have hfits : (newcomer.apply spectator ⟨1, 0⟩ (Wire.written afflictions)).2.2.Fits := by
    decide +kernel
  obtain ⟨report, v, -, hfirst, hreproduced, -⟩ := (reachable_battle.snapshot_reproduces
    reachable_spectator he hx understands_spectator hmarks).2 _ snapshotAll_battle hfits
  refine ⟨he, hx, _, report, v, snapshotAll_battle, hfirst, hreproduced, ?_⟩
  have hcarries : battle.Carries ⟨0, 0⟩ (Id.component ⟨1⟩) := by unfold Carries; decide +kernel
  have hpart : battle.Counterpart ⟨0, 0⟩ spectator ⟨1⟩ ⟨2⟩ :=
    ⟨_, _, rfl, rfl, hcarries, rfl, rfl⟩
  rw [hreproduced.peek ⟨1⟩ ⟨2⟩ _ hpart rfl rfl]
  decide +kernel

/-! ### A chronicle of four gigabytes -/

/-- The text is followed by blank pages, which the reader leaves out. -/
def chronicle : TypeDescription := (TypeDescription.plain .u32 "Game.Chronicle").replicated
  ⟨fun v => .ok (v.bytes ++ List.replicate 0x100000000 0), fun bs => .ok (.plain (bs.take 4))⟩

def library : World :=
  World.new.run [.registerType chronicle, .spawn,
    .edit (.write ⟨0, 0⟩ ⟨1⟩ .u32 (.plain [1, 0, 0, 0]))]

def study : World := World.new.run [.registerType burning, .registerType chronicle, .spawn]

theorem shares_library :
    library.Shares ⟨0, 0⟩ (Registry.freeze chronicle ⟨1⟩) (.plain [1, 0, 0, 0]) where
  type := rfl
  replicable := rfl
  peek := by decide +kernel

theorem understands_study : study.Understands library ⟨0, 0⟩ := by
  intro d u hs
  have htypes : library.registry.entries =
      [Registry.freeze childOfDescription ⟨0⟩, Registry.freeze chronicle ⟨1⟩] := rfl
  have hmem : d ∈ library.registry.entries := List.mem_of_getElem? hs.type
  simp only [htypes, List.mem_cons, List.not_mem_nil, or_false] at hmem
  obtain rfl | rfl := hmem
  · cases hs.replicable
  · obtain rfl := hs.unique shares_library
    exact ⟨⟨2⟩, Registry.freeze chronicle ⟨2⟩, rfl, rfl, rfl, rfl, fun _ =>
      ⟨_, _, [1, 0, 0, 0] ++ List.replicate 0x100000000 0, rfl, rfl, rfl,
        congrArg (Except.ok ∘ Value.plain) (List.take_left' rfl)⟩⟩

/-- The reader would understand the chronicle, but it is too long to be sent. -/
theorem library_not_sent : library.Reachable ∧ study.Reachable ∧
    library.isAlive ⟨0, 0⟩ = true ∧ study.isAlive ⟨0, 0⟩ = true ∧
    study.Understands library ⟨0, 0⟩ ∧ (∀ k, newcomer.hasLocalWrite ⟨0, 0⟩ k = false) ∧
    ¬ ∃ bytes, (Replicator.snapshotAll library ⟨0, 0⟩).1 = .ok bytes := by
  have hlibrary : library.Reachable := Reachable.new.run (by decide +kernel)
  have he : library.isAlive ⟨0, 0⟩ = true := by decide +kernel
  refine ⟨hlibrary, Reachable.new.run (by decide +kernel), he, by decide +kernel, understands_study,
    fun _ => rfl, fun hex => ?_⟩
  have hshort := (hlibrary.exists_snapshotAll_iff he fun _ _ => understands_study.sends).1 hex _ _ _
    shares_library (.value rfl rfl rfl)
  rw [List.length_append, List.length_replicate] at hshort
  exact Nat.not_lt_of_le (Nat.le_add_left _ _) hshort

end World
end EntityWorld
