import EntityWorld.Proofs.Query.Cache
set_option autoImplicit false

/-!
What a query remembers when a world was shut down and has grown again. A refresh compares numbers of
tables alone, so it finds what is there if and only if the tables that come in the places of those
it has seen match alike, or are fewer.
-/
namespace EntityWorld

namespace Storage

variable {s : Storage}

theorem Numbered.map_fst_take_keys {n : Nat} (h : s.Numbered) (hs : s.size < 2 ^ 32)
    (hn : n ≤ s.size) :
    (s.keys.take n).map Prod.fst = (List.range n).map fun k => ⟨UInt32.ofNat k⟩ := by
  apply List.ext_getElem
  · rw [List.length_map, List.length_take, length_keys, List.length_map, List.length_range]
    exact Nat.min_eq_left hn
  · intro k h₁ h₂
    have hk : k < s.size := by
      simp at h₂
      omega
    have hraw : (UInt32.ofNat k).toNat = k := UInt32.toNat_ofNat_of_lt' (Nat.lt_trans hk hs)
    have hget : s.get? ⟨UInt32.ofNat k⟩ = some s.archetypes[k] := by
      rw [get?, hraw]
      exact Array.getElem?_eq_getElem hk
    simp only [keys, List.getElem_map, List.getElem_take, List.getElem_range, Array.getElem_toList]
    exact h _ _ hget

theorem nodup_numbers {n : Nat} (hn : n ≤ 2 ^ 32) :
    ((List.range n).map fun k => (⟨UInt32.ofNat k⟩ : ArchetypeId)).Nodup := by
  refine List.Nodup.map_on ?_ List.nodup_range
  intro j hj k hk heq
  have hraw := congrArg (fun i : ArchetypeId => i.raw.toNat) heq
  have hj := Nat.lt_of_lt_of_le (List.mem_range.1 hj) hn
  have hk := Nat.lt_of_lt_of_le (List.mem_range.1 hk) hn
  rwa [UInt32.toNat_ofNat_of_lt' hj, UInt32.toNat_ofNat_of_lt' hk] at hraw

end Storage

theorem World.fitsAlong_append {w : World} {before after : List Operation} :
    w.FitsAlong (before ++ after) ↔ w.FitsAlong before ∧ (w.run before).FitsAlong after := by
  induction before generalizing w with
  | nil => exact (and_iff_right trivial).symm
  | cons op rest ih => exact (and_congr_right fun _ => ih).trans and_assoc.symm

namespace Query

variable {w v : World} {source : TermList} {q : Query} {rounds : List (List Operation)}

def scan (q : Query) (w : World) : List ArchetypeId :=
  (w.storage.archetypes.toList.filter q.admits).map Archetype.id

/-- If `v` has as many tables as the query has seen in `w`, the same ones of them match. -/
def Alike (q : Query) (w v : World) : Prop :=
  q.seen ≤ v.storage.size → ∀ n < q.seen,
    (w.storage.archetypes[n]?).map q.admits = (v.storage.archetypes[n]?).map q.admits

/-- After each round of operations a refresh finds what a look at all tables does. -/
def ScansAlong (q : Query) (w : World) : List (List Operation) → Prop
  | [] => True
  | ops :: rest => (q.refresh (w.run ops)).matched = q.scan (w.run ops) ∧
      (q.refresh (w.run ops)).ScansAlong (w.run ops) rest

/-- After each round the tables match as those did that were seen at the refresh before. -/
def AlikeAlong (q : Query) (w : World) : List (List Operation) → Prop
  | [] => True
  | ops :: rest => q.Alike w (w.run ops) ∧ (q.refresh (w.run ops)).AlikeAlong (w.run ops) rest

theorem map_fst_filter_eq_iff {α β : Type} {p : α × β → Bool} {l l' : List (α × β)}
    (hfst : l.map Prod.fst = l'.map Prod.fst) (hnodup : (l.map Prod.fst).Nodup) :
    (l.filter p).map Prod.fst = (l'.filter p).map Prod.fst ↔ l.map p = l'.map p := by
  induction l generalizing l' with
  | nil =>
    cases l' with
    | nil => simp
    | cons y l' => simp at hfst
  | cons x l ih =>
    cases l' with
    | nil => simp at hfst
    | cons y l' =>
      simp only [List.map_cons, List.cons.injEq] at hfst
      obtain ⟨hxy, hfst⟩ := hfst
      have hnot := (List.nodup_cons.1 hnodup).1
      have hnot' : x.1 ∉ l'.map Prod.fst := hfst ▸ hnot
      have hrest := ih hfst (List.nodup_cons.1 hnodup).2
      have hmem : ∀ k : List (α × β), x.1 ∉ k.map Prod.fst →
          ∀ t, x.1 :: t ≠ (k.filter p).map Prod.fst := by
        intro k hk t heq
        have hx : x.1 ∈ (k.filter p).map Prod.fst := heq ▸ List.mem_cons_self
        exact hk ((List.filter_sublist.map Prod.fst).subset hx)
      cases hpx : p x <;> cases hpy : p y
      · simpa [hpx, hpy] using hrest
      · simpa [hpx, hpy, ← hxy] using (hmem l hnot _).symm
      · simpa [hpx, hpy] using hmem l' hnot' _
      · simpa [hpx, hpy, hxy] using hrest

theorem map_admits_getElem? (q : Query) (w : World) (n : Nat) :
    (w.storage.archetypes[n]?).map q.admits = (w.storage.keys[n]?).map q.admitsKey := by
  rw [Storage.getElem?_keys, Option.map_map]
  rfl

theorem refresh_of_fewer (h : v.storage.size < q.seen) : (q.refresh v).matched = q.scan v := by
  have hne : q.seen ≠ v.storage.size := by omega
  unfold Query.refresh
  dsimp only
  rw [if_neg hne, if_pos h]
  rfl

theorem matched_refresh (h : q.seen ≤ v.storage.size) : (q.refresh v).matched =
    q.matched ++ ((v.storage.archetypes.toList.drop q.seen).filter q.admits).map Archetype.id := by
  have hall : v.storage.archetypes.toList.length = v.storage.size := by simp [Storage.size]
  unfold Query.refresh
  dsimp only
  split
  · rw [List.drop_of_length_le (by omega)]
    simp
  · rw [if_neg (Nat.not_lt.2 h)]
    rfl

theorem refresh_terms (q : Query) (v : World) :
    (q.refresh v).source = q.source ∧ (q.refresh v).terms = q.terms ∧
      (q.refresh v).seen = v.storage.size := by
  unfold Query.refresh
  dsimp only
  split
  · next hseen => exact ⟨rfl, rfl, hseen⟩
  · split <;> exact ⟨rfl, rfl, rfl⟩

namespace Current

theorem refresh_iff (h : Current source w q) (hw : w.Reachable) (hv : v.Reachable) :
    (q.refresh v).matched = q.scan v ↔ q.Alike w v := by
  obtain hfew | hmany := Nat.lt_or_ge v.storage.size q.seen
  · exact iff_of_true (refresh_of_fewer hfew) fun hle => absurd hfew (Nat.not_lt.2 hle)
  have hfw := hw.fits.tables
  have hfv := hv.fits.tables
  have hnumbered : w.storage.Numbered := hw.wellFormed.storage.numbered
  have hnumbered' : v.storage.Numbered := hv.wellFormed.storage.numbered
  have hnames := hnumbered.map_fst_take_keys (by omega) h.seen
  have hnames' := hnumbered'.map_fst_take_keys (by omega) hmany
  have hnodup : ((w.storage.keys.take q.seen).map Prod.fst).Nodup := by
    rw [hnames]
    exact Storage.nodup_numbers (by have := h.seen; omega)
  have hsplit : q.scan v =
      ((v.storage.archetypes.toList.take q.seen).filter q.admits).map Archetype.id ++
        ((v.storage.archetypes.toList.drop q.seen).filter q.admits).map Archetype.id := by
    rw [scan, ← List.map_append, ← List.filter_append, List.take_append_drop]
  rw [matched_refresh hmany, hsplit, List.append_cancel_right_eq, h.matched, map_id_filter_admits,
    List.map_take, ← Storage.keys, map_fst_filter_eq_iff (hnames.trans hnames'.symm) hnodup]
  have hat : ∀ (u : World) (n : Nat), ((u.storage.keys.take q.seen).map q.admitsKey)[n]? =
      if n < q.seen then (u.storage.archetypes[n]?).map q.admits else none := by
    intro u n
    rw [List.getElem?_map, List.getElem?_take]
    split
    · exact (map_admits_getElem? q u n).symm
    · rfl
  rw [List.ext_getElem?_iff]
  simp only [hat]
  constructor
  · intro hsame _ n hn
    simpa [hn] using hsame n
  · intro halike n
    split
    · next hn => exact halike hmany n hn
    · rfl

theorem again (h : Current source w q) (hscan : (q.refresh v).matched = q.scan v) :
    Current source v (q.refresh v) := by
  obtain ⟨hsource, hterms, hseen⟩ := refresh_terms q v
  refine ⟨hsource.trans h.compiled, hterms.trans h.terms, Nat.le_of_eq hseen, ?_⟩
  have hadmits : (q.refresh v).admitsKey = q.admitsKey := by
    funext k
    rw [admitsKey, admitsKey, admits, admits, hterms]
  have hall := v.storage.length_keys
  rw [hscan, scan, map_id_filter_admits, hadmits, hseen, List.take_of_length_le (by omega),
    Storage.keys]

theorem alike_of_keeps (h : Current source w q) (hw : w.storage.Numbered)
    (hkeeps : w.storage.Keeps v.storage) : q.Alike w v := by
  intro _ n hn
  obtain ⟨-, later, hlater⟩ := hkeeps hw
  have hlen := w.storage.length_keys
  have hseen := h.seen
  have hkey : v.storage.keys[n]? = w.storage.keys[n]? := by
    rw [← hlater, List.getElem?_append_left (by omega)]
  rw [map_admits_getElem?, map_admits_getElem?, hkey]

end Current

theorem run_keeps {ops : List Operation} (hops : .shutdown ∉ ops) :
    w.storage.Keeps (w.run ops).storage := by
  induction ops generalizing w with
  | nil => exact .refl w.storage
  | cons op rest ih =>
    rw [List.mem_cons, not_or] at hops
    exact (w.perform_keeps (Ne.symm hops.1)).trans (ih hops.2)

theorem Current.scansAlong (h : Current source w q) (hw : w.Reachable)
    (hf : w.FitsAlong rounds.flatten) : q.ScansAlong w rounds ↔ q.AlikeAlong w rounds := by
  induction rounds generalizing w q with
  | nil => exact Iff.rfl
  | cons ops rest ih =>
    obtain ⟨hops, hrest⟩ := World.fitsAlong_append.1 hf
    have hv := hw.run hops
    have hright := h.refresh_iff hw hv
    constructor
    · intro hscans
      exact ⟨hright.1 hscans.1, (ih (h.again hscans.1) hv hrest).1 hscans.2⟩
    · intro halike
      have hscan := hright.2 halike.1
      exact ⟨hscan, (ih (h.again hscan) hv hrest).2 halike.2⟩

theorem Current.alikeAlong (h : Current source w q) (hw : w.Reachable)
    (hf : w.FitsAlong rounds.flatten) (hops : ∀ ops ∈ rounds, .shutdown ∉ ops) :
    q.AlikeAlong w rounds := by
  induction rounds generalizing w q with
  | nil => trivial
  | cons ops rest ih =>
    obtain ⟨hfit, hrest⟩ := World.fitsAlong_append.1 hf
    have hv := hw.run hfit
    have halike := h.alike_of_keeps hw.wellFormed.storage.numbered
      (run_keeps (hops ops List.mem_cons_self))
    exact ⟨halike, ih (h.again ((h.refresh_iff hw hv).2 halike)) hv hrest
      fun x hx => hops x (List.mem_cons_of_mem ops hx)⟩

/-- Refreshes find what there is if and only if the tables that were seen stay or are replaced by
fewer ones or by others that match alike, and so always where nothing is shut down. -/
theorem Follows.scansAlong_iff (h : Follows source w q) (hf : w.FitsAlong rounds.flatten) :
    (q.ScansAlong w rounds ↔ q.AlikeAlong w rounds) ∧
      ((∀ ops ∈ rounds, .shutdown ∉ ops) → q.ScansAlong w rounds) := by
  have hscans := h.current.scansAlong h.reachable hf
  exact ⟨hscans, fun hops => hscans.2 (h.current.alikeAlong h.reachable hf hops)⟩

def tagged : World := World.new.run
  [.registerType (TypeDescription.tag "Game.A"), .registerType (TypeDescription.tag "Game.B")]

def firstTag : TermList := [Term.having ⟨1⟩]

def firstTagged : Query := ⟨firstTag.map Term.compiled, firstTag, [], 0⟩

/-- An entity gets the second tag, and after a shutdown another one gets the tag `h`. -/
def regrown (h : TypeHandle) : List (List Operation) :=
  [[.spawn, .edit (.add ⟨0, 0⟩ (Id.component ⟨2⟩))],
    [.shutdown, .registerType (TypeDescription.tag "Game.A"),
      .registerType (TypeDescription.tag "Game.B"), .spawn, .edit (.add ⟨0, 1⟩ (Id.component h))]]

theorem follows_firstTagged : Follows firstTag tagged firstTagged :=
  .compile (World.Reachable.new.run (by decide +kernel)) (by decide +kernel)

theorem scansAlong_iff_regrown :
    Follows firstTag tagged firstTagged ∧ tagged.FitsAlong (regrown ⟨2⟩).flatten ∧
    (firstTagged.ScansAlong tagged (regrown ⟨2⟩) ↔ firstTagged.AlikeAlong tagged (regrown ⟨2⟩)) ∧
    ((∀ ops ∈ regrown ⟨2⟩, .shutdown ∉ ops) → firstTagged.ScansAlong tagged (regrown ⟨2⟩)) := by
  have hf : tagged.FitsAlong (regrown ⟨2⟩).flatten := by decide +kernel
  exact ⟨follows_firstTagged, hf, follows_firstTagged.scansAlong_iff hf⟩

/-- There are as many tables as before, and the one that matches is not found. -/
theorem regrown_not_scansAlong :
    Follows firstTag tagged firstTagged ∧ tagged.FitsAlong (regrown ⟨1⟩).flatten ∧
    ((firstTagged.refresh (tagged.run (regrown ⟨1⟩)[0])).refresh
      (tagged.run (regrown ⟨1⟩).flatten)).matched = [] ∧
    firstTagged.scan (tagged.run (regrown ⟨1⟩).flatten) = [⟨1⟩] ∧
    ¬ firstTagged.ScansAlong tagged (regrown ⟨1⟩) := by
  exact ⟨follows_firstTagged, by decide +kernel, by decide +kernel, by decide +kernel,
    fun h => absurd h.2.1 (by decide +kernel)⟩

end Query
end EntityWorld
