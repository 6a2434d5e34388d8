import EntityWorld.Proofs.Registry
import Mathlib.Data.List.Induction
set_option autoImplicit false

/-!
The tables of a registry after any calls. Handle, path, hash of the path and host type lead to the
same types, each type can be copied and destroyed as it has to be, and a description that was
accepted once is accepted ever after, with the same handle.
-/
namespace EntityWorld

theorem TypeDescription.hooks_of_check {d : TypeDescription} (h : d.check = .ok ())
    (hsize : d.size ≠ 0) : (d.flags.trivial = true ∨ d.hooks.copy = true) ∧
      ((∃ f ∈ d.fields, f.kind = .owning) → d.hooks.drop = true) := by
  unfold check at h
  split at h
  · cases h
  split at h
  · cases h
  split at h
  · cases h
  split at h
  · cases h
  simp only at h
  split at h
  · cases h
  next hdrop =>
  split at h
  · cases h
  next hcopy =>
  refine ⟨?_, fun howning => ?_⟩
  · simpa [Decidable.or_iff_not_imp_left] using hcopy
  · obtain ⟨f, hf, hkind⟩ := howning
    obtain ⟨g, hg⟩ : ∃ g, (d.fields.find? fun f => f.kind = .owning) = some g :=
      Option.isSome_iff_exists.1 (List.find?_isSome.2 ⟨f, hf, decide_eq_true hkind⟩)
    by_contra hno
    exact hdrop g hg (Bool.eq_false_iff.2 hno)

/-- Values of the type come and go by its hooks, and bytewise only where that is harmless. -/
structure TypeDescriptor.Handled (d : TypeDescriptor) : Prop where
  empty : d.size = 0 → d.hooks = {} ∧ d.flags.trivial = true
  copied : d.size ≠ 0 → d.flags.trivial = true ∨ d.hooks.copy = true
  destroyed : d.size ≠ 0 → (∃ f ∈ d.fields, f.kind = .owning) → d.hooks.drop = true
  bytewise : ∀ v, d.copyEvents v = [] ∨ d.moveEvents v = [] → d.flags.trivial = true

namespace Registry

variable {r r' : Registry} {h k : TypeHandle} {d e : TypeDescriptor} {desc : TypeDescription}
  {ds : List TypeDescription} {t : HostType} {path : String} {n : Nat}

/-! ### Freezing a description -/

theorem handled_freeze (hc : desc.check = .ok ()) (h : TypeHandle) : (freeze desc h).Handled := by
  by_cases hsize : desc.size = 0
  · have htrivial : (freeze desc h).flags.trivial = true := by simp [freeze, hsize]
    exact ⟨fun _ => ⟨if_pos hsize, htrivial⟩, fun hne => absurd hsize hne,
      fun hne => absurd hsize hne, fun _ _ => htrivial⟩
  · have hhooks : (freeze desc h).hooks = desc.hooks := if_neg hsize
    have hflags : (freeze desc h).flags = desc.flags := if_neg hsize
    obtain ⟨hcopied, hdestroyed⟩ := desc.hooks_of_check hc hsize
    rw [← hhooks, ← hflags] at hcopied
    refine ⟨fun hz => absurd hz hsize, fun _ => hcopied, fun _ => hhooks ▸ hdestroyed, ?_⟩
    intro v hv
    -- a copy hook runs at every copy, and at every move that is not bytewise or by the move hook
    by_contra htrivial
    have hcopy := hcopied.resolve_left htrivial
    rw [Bool.not_eq_true] at htrivial
    cases hmove : (freeze desc h).hooks.move <;>
      simp [TypeDescriptor.moveEvents, TypeDescriptor.copyEvents, htrivial, hcopy, hmove] at hv

theorem sameShape_freeze (desc : TypeDescription) (h : TypeHandle) :
    (freeze desc h).sameShape desc = true := by
  by_cases hsize : desc.size = 0 ∧ desc.classification ≠ .relationship
  · simp [TypeDescriptor.sameShape, freeze, hsize]
  · simp [TypeDescriptor.sameShape, freeze, hsize]

/-! ### One call -/

def call (r : Registry) (d : TypeDescription) : Except SchemaError TypeHandle × Registry :=
  match r.register d with
  | .ok (h, r') => (.ok h, r')
  | .error e => (.error e, r)

theorem call_of_ok (hr : r.register desc = .ok (h, r')) : r.call desc = (.ok h, r') := by
  rw [call, hr]

theorem call_cases (r : Registry) (desc : TypeDescription) :
    (∃ err, r.call desc = (.error err, r)) ∨
      ∃ h r', r.register desc = .ok (h, r') ∧ r.call desc = (.ok h, r') := by
  unfold call
  split
  · next h r' hr => exact .inr ⟨h, r', hr, rfl⟩
  · next err hr => exact .inl ⟨err, rfl⟩

/-! ### Tables in step -/

/-- Each type came from one of the descriptions `ds`, and all tables lead to it. -/
structure Filed (ds : List TypeDescription) (r : Registry) : Prop where
  wellFormed : r.WellFormed
  indexed : r.Indexed
  traced : r.Traced
  frozen : ∀ h d, r.descriptor? h = some d →
    ∃ desc ∈ ds, desc.check = .ok () ∧ d = freeze desc h
  lookup_iff : ∀ path h, r.lookup path = some h ↔ ∃ d, r.descriptor? h = some d ∧ d.path = path
  hostType : ∀ t h, r.handleOf? t = some h → ∃ d, r.descriptor? h = some d ∧ d.hostType = some t
  hosted : ∀ h d t, r.descriptor? h = some d → d.hostType = some t → ∃ k, r.handleOf? t = some k

theorem Filed.empty : Filed [] .empty := by
  have hnone (h : TypeHandle) : Registry.empty.descriptor? h = none := by
    simp [descriptor?, Registry.empty]
  refine ⟨.empty, .empty, .empty, fun h d hd => ?_, fun path h => ?_, fun t h hh => ?_,
    fun h d t hd => ?_⟩
  · rw [hnone] at hd
    cases hd
  · rw [hnone]
    exact iff_of_false (fun hh => by cases hh) fun hex => by simp at hex
  · cases hh
  · rw [hnone] at hd
    cases hd

theorem Filed.mono (hf : Filed ds r) (desc : TypeDescription) : Filed (ds ++ [desc]) r := by
  refine { hf with frozen := fun h d hd => ?_ }
  obtain ⟨old, hold, hfrozen⟩ := hf.frozen h d hd
  exact ⟨old, List.mem_append_left _ hold, hfrozen⟩

theorem descriptor?_push_eq_some_iff (hn : r.size ≤ maxHandle) (hh : h = ⟨UInt32.ofNat r.size⟩) :
    (r.push e).descriptor? k = some d ↔ k = h ∧ d = e ∨ r.descriptor? k = some d := by
  have hk : k.raw.toNat = r.size ↔ k = h := by
    rw [← toNat_ofNat_size hn, UInt32.toNat_inj, hh]
    exact ⟨congrArg TypeHandle.mk, congrArg TypeHandle.raw⟩
  rw [descriptor?_push]
  split
  · next hsize =>
    have hnone : r.descriptor? k = none := List.getElem?_eq_none (Nat.le_of_eq hsize.symm)
    rw [hnone, Option.some.injEq]
    exact ⟨fun heq => .inl ⟨hk.1 hsize, heq.symm⟩, fun hor => (hor.resolve_right nofun).2.symm⟩
  · next hsize => exact ⟨.inr, fun hor => hor.resolve_left fun hnew => hsize (hk.2 hnew.1)⟩

theorem lookup_push (r : Registry) (desc : TypeDescription) (h : TypeHandle) (path : String) :
    (r.push (freeze desc h)).lookup path =
      if path = desc.path then some h else r.lookup path :=
  FinMap.get?_insert _ _ _ _

theorem handleOf?_push (r : Registry) (desc : TypeDescription) (h : TypeHandle) (t : HostType) :
    (r.push (freeze desc h)).handleOf? t =
      if desc.hostType = some t then some h else r.handleOf? t := by
  cases hown : desc.hostType with
  | none => simp [handleOf?, push, freeze, hown]
  | some own => simp [handleOf?, push, freeze, hown, FinMap.get?_insert, eq_comm]

theorem Filed.register (hf : Filed ds r) (hr : r.register desc = .ok (h, r')) :
    Filed (ds ++ [desc]) r' := by
  have hw := hf.wellFormed.register hr
  have hi := hf.indexed.register hr
  have ht := hf.traced.register hr
  obtain ⟨rfl, -⟩ | ⟨hn, ⟨hfree, -⟩, hh, rfl⟩ := register_cases hr
  · exact hf.mono desc
  have hiff {k : TypeHandle} {d : TypeDescriptor} := descriptor?_push_eq_some_iff
    (k := k) (d := d) (e := freeze desc h) hn hh
  refine ⟨hw, hi, ht, fun k d hd => ?_, fun path k => ?_, fun t k hk => ?_,
    fun k d t hd htype => ?_⟩
  · obtain ⟨rfl, rfl⟩ | hd := hiff.1 hd
    · exact ⟨desc, by simp, check_of_register hr, rfl⟩
    · exact (hf.mono desc).frozen k d hd
  · have hold : (∃ d, (r.push (freeze desc h)).descriptor? k = some d ∧ d.path = path) ↔
        k = h ∧ desc.path = path ∨ r.lookup path = some k := by
      simp only [hiff, hf.lookup_iff, or_and_right, exists_or, and_assoc, exists_and_left,
        exists_eq_left]
      rfl
    rw [hold, lookup_push]
    by_cases hpath : path = desc.path
    · rw [if_pos hpath, hpath, hfree]
      simp [eq_comm]
    · rw [if_neg hpath]
      simp [Ne.symm hpath]
  · rw [handleOf?_push] at hk
    split at hk
    · next htype =>
      obtain rfl := Option.some.inj hk
      exact ⟨_, hiff.2 (.inl ⟨rfl, rfl⟩), htype⟩
    · obtain ⟨d, hd, htype⟩ := hf.hostType t k hk
      exact ⟨d, hiff.2 (.inr hd), htype⟩
  · rw [handleOf?_push]
    split
    · exact ⟨_, rfl⟩
    · next hne =>
      obtain ⟨rfl, rfl⟩ | hd := hiff.1 hd
      · exact absurd htype hne
      · exact hf.hosted k d t hd htype

/-! ### All calls -/

def calls (x : List TypeHandle × Registry) (ds : List TypeDescription) :
    List TypeHandle × Registry :=
  ds.foldl (fun x d => (x.1 ++ (x.2.call d).1.toOption.toList, (x.2.call d).2)) x

theorem calls_concat (x : List TypeHandle × Registry) (ds : List TypeDescription)
    (d : TypeDescription) : calls x (ds ++ [d]) =
      ((calls x ds).1 ++ ((calls x ds).2.call d).1.toOption.toList, ((calls x ds).2.call d).2) :=
  List.foldl_append

theorem grows_calls (x : List TypeHandle × Registry) (ds : List TypeDescription) :
    x.2.Grows (calls x ds).2 := by
  induction ds using List.reverseRecOn with
  | nil => exact .refl
  | append_singleton ds d ih =>
    rw [calls_concat]
    obtain ⟨err, hc⟩ | ⟨h, r', hr, hc⟩ := (calls x ds).2.call_cases d
    · rwa [hc]
    · rw [hc]
      exact ih.register hr

theorem Filed.calls {x : List TypeHandle × Registry} (hf : Filed ds x.2)
    (more : List TypeDescription) : Filed (ds ++ more) (calls x more).2 := by
  induction more using List.reverseRecOn with
  | nil => rwa [List.append_nil]
  | append_singleton more d ih =>
    rw [calls_concat, ← List.append_assoc]
    obtain ⟨err, hc⟩ | ⟨h, r', hr, hc⟩ := (Registry.calls x more).2.call_cases d
    · rw [hc]
      exact ih.mono d
    · rw [hc]
      exact ih.register hr

theorem Filed.register_found (hf : Filed ds r) (hr : r.register desc = .ok (h, r')) :
    ∃ d, r'.descriptor? h = some d ∧ d.path = desc.path ∧ d.sameShape desc = true := by
  obtain ⟨rfl, hl, d, hd, hs⟩ | ⟨hn, -, hh, rfl⟩ := register_cases hr
  · obtain ⟨e, he, hpath⟩ := (hf.lookup_iff _ h).1 hl
    obtain rfl := Option.some.inj (hd.symm.trans he)
    exact ⟨d, hd, hpath, hs⟩
  · exact ⟨_, (descriptor?_push_eq_some_iff hn hh).2 (.inl ⟨rfl, rfl⟩), rfl,
      sameShape_freeze desc h⟩

theorem Filed.eq_of_path (hf : Filed ds r) (hd : r.descriptor? h = some d)
    (he : r.descriptor? k = some e) (hpath : d.path = e.path) : h = k :=
  Option.some.inj (((hf.lookup_iff _ h).2 ⟨d, hd, hpath⟩).symm.trans
    ((hf.lookup_iff _ k).2 ⟨e, he, rfl⟩))

theorem Filed.ofStableId?_iff (hf : Filed ds r) (id : UInt32) (h : TypeHandle) :
    r.ofStableId? id = some h ↔ ∃ d, r.descriptor? h = some d ∧ stableIdOf d.path = id := by
  constructor
  · intro hid
    obtain ⟨d, hd, rfl⟩ := hf.traced id h hid
    exact ⟨d, hd, (hf.indexed.hashed h d hd).symm⟩
  · intro hex
    obtain ⟨d, hd, rfl⟩ := hex
    rw [← hf.indexed.hashed h d hd]
    exact hf.indexed.found h d hd

def handles (n : Nat) : List TypeHandle := (List.range n).map fun k => ⟨.ofNat k⟩

theorem handles_succ (n : Nat) : handles (n + 1) = handles n ++ [⟨.ofNat n⟩] := by
  rw [handles, List.range_succ, List.map_append]
  rfl

theorem size_push (r : Registry) (d : TypeDescriptor) : (r.push d).size = r.size + 1 :=
  List.length_append

theorem mem_handles (hn : n ≤ maxHandle + 1) : h ∈ handles n ↔ h.raw.toNat < n := by
  have hlt (k : Nat) (hk : k < n) : (UInt32.ofNat k).toNat = k := by
    rw [UInt32.toNat_ofNat', Nat.mod_eq_of_lt (by simp only [maxHandle] at hn; omega)]
  rw [handles, List.mem_map]
  constructor
  · intro hex
    obtain ⟨k, hk, rfl⟩ := hex
    rw [List.mem_range] at hk
    rwa [hlt k hk]
  · intro hh
    exact ⟨h.raw.toNat, List.mem_range.2 hh, by rw [UInt32.ofNat_toNat]⟩

theorem eraseDups_calls (ds : List TypeDescription) :
    (calls ([], .empty) ds).1.eraseDups = handles (calls ([], .empty) ds).2.size := by
  induction ds using List.reverseRecOn with
  | nil => rfl
  | append_singleton ds d ih =>
    have hf := Filed.empty.calls (x := ([], .empty)) ds
    rw [calls_concat]
    obtain ⟨⟨issued, r⟩, hx⟩ : ∃ x, calls ([], .empty) ds = x := ⟨_, rfl⟩
    simp only [hx] at ih hf ⊢
    obtain ⟨err, hc⟩ | ⟨h, r', hr, hc⟩ := r.call_cases d
    · rw [hc]
      exact (congrArg List.eraseDups (List.append_nil issued)).trans ih
    · have hmem : h ∈ issued ↔ h.raw.toNat < r.size := by
        rw [← mem_handles hf.wellFormed.bounded, ← ih, List.mem_eraseDups]
      have hlast : (issued ++ [h]).eraseDups =
          handles r.size ++ if h ∈ issued then [] else [h] := by
        rw [List.eraseDups_append, ih]
        by_cases hh : h ∈ issued <;> simp [List.removeAll, List.eraseDups_cons, hh]
      rw [hc]
      refine hlast.trans ?_
      obtain ⟨rfl, -, e, he, -⟩ | ⟨hn, -, rfl, rfl⟩ := register_cases hr
      · rw [if_pos (hmem.2 (List.getElem?_eq_some_iff.1 he).1), List.append_nil]
      · have hnew : (⟨UInt32.ofNat r.size⟩ : TypeHandle) ∉ issued := by
          rw [hmem, toNat_ofNat_size hn]
          exact Nat.lt_irrefl _
        rw [if_neg hnew]
        exact (handles_succ r.size).symm.trans (congrArg handles (r.size_push _).symm)

/-- How a registry stands after the calls `ds` on a new one, of which `issued` are the answers. -/
structure Catalogued (ds : List TypeDescription) (issued : List TypeHandle) (r : Registry) :
    Prop where
  numbered : issued.eraseDups = handles r.size ∧ r.size ≤ maxHandle + 1 ∧
    ∀ h, (∃ d, r.descriptor? h = some d) ↔ h.raw.toNat < r.size
  descriptor : ∀ h d, r.descriptor? h = some d → d.handle = h ∧
    (∃ desc ∈ ds, desc.check = .ok () ∧ d = freeze desc h) ∧
    ∀ more, (calls (issued, r) more).2.descriptor? h = some d
  path : ∀ path h, r.lookup path = some h ↔ ∃ d, r.descriptor? h = some d ∧ d.path = path
  stableId : ∀ id h, r.ofStableId? id = some h ↔
    ∃ d, r.descriptor? h = some d ∧ stableIdOf d.path = id
  distinct : ∀ h k d e, r.descriptor? h = some d → r.descriptor? k = some e →
    d.path = e.path ∨ d.stableId = e.stableId → h = k
  hostType : ∀ t h, r.handleOf? t = some h → ∃ d, r.descriptor? h = some d ∧ d.hostType = some t
  hosted : ∀ h d t, r.descriptor? h = some d → d.hostType = some t → ∃ k, r.handleOf? t = some k
  handled : ∀ h d, r.descriptor? h = some d → d.Handled
  failed : ∀ desc err, (r.call desc).1 = .error err → (r.call desc).2 = r
  again : ∀ desc h, (r.call desc).1 = .ok h → ∀ more,
    (calls (issued, (r.call desc).2) more).2.call desc =
      (.ok h, (calls (issued, (r.call desc).2) more).2)

theorem call_of_error (r : Registry) {desc : TypeDescription} {err : SchemaError}
    (herr : (r.call desc).1 = .error err) : (r.call desc).2 = r := by
  obtain ⟨_, hc⟩ | ⟨h, r', -, hc⟩ := r.call_cases desc
  · rw [hc]
  · rw [hc] at herr
    cases herr

theorem call_again {ds : List TypeDescription} {r : Registry} (hf : Filed ds r)
    {desc : TypeDescription} {h : TypeHandle} (hok : (r.call desc).1 = .ok h)
    (issued : List TypeHandle) (more : List TypeDescription) :
    (calls (issued, (r.call desc).2) more).2.call desc =
      (.ok h, (calls (issued, (r.call desc).2) more).2) := by
  obtain ⟨err, hc⟩ | ⟨k, r', hr, hc⟩ := r.call_cases desc
  · rw [hc] at hok
    cases hok
  · rw [hc] at hok ⊢
    obtain rfl := Except.ok.inj hok
    obtain ⟨d, hd, hpath, hshape⟩ := hf.register_found hr
    have hd' := (grows_calls (issued, r') more).descriptor? hd
    have hfiled := (hf.register hr).calls (x := (issued, r')) more
    have hl := (hfiled.lookup_iff _ k).2 ⟨d, hd', hpath⟩
    exact call_of_ok (register_of_sameShape (check_of_register hr) hl hd' hshape)

/-- The tables of a registry are in step, whatever was registered and refused. -/
theorem catalogued (ds : List TypeDescription) :
    Catalogued ds (calls ([], .empty) ds).1 (calls ([], .empty) ds).2 := by
  have hf : Filed ds (calls ([], .empty) ds).2 := Filed.empty.calls (x := ([], .empty)) ds
  have horder := eraseDups_calls ds
  obtain ⟨⟨issued, r⟩, hx⟩ : ∃ x, calls ([], .empty) ds = x := ⟨_, rfl⟩
  simp only [hx] at hf horder ⊢
  refine ⟨⟨horder, hf.wellFormed.bounded, fun h => ?_⟩,
    fun h d hd => ⟨hf.wellFormed.numbered h d hd, hf.frozen h d hd,
      fun more => (grows_calls (issued, r) more).descriptor? hd⟩,
    hf.lookup_iff, hf.ofStableId?_iff, fun h k d e hd he hsame => ?_, hf.hostType, hf.hosted,
    fun h d hd => ?_, fun desc err herr => r.call_of_error herr,
    fun desc h hok more => call_again hf hok issued more⟩
  · constructor
    · intro hex
      obtain ⟨d, hd⟩ := hex
      exact (List.getElem?_eq_some_iff.1 hd).1
    · intro hlt
      exact ⟨_, List.getElem?_eq_getElem hlt⟩
  · obtain hpath | hid := hsame
    · exact hf.eq_of_path hd he hpath
    · have hh := hf.indexed.found h d hd
      rw [hid, hf.indexed.found k e he] at hh
      exact (Option.some.inj hh).symm
  · obtain ⟨desc, -, hcheck, rfl⟩ := hf.frozen h d hd
    exact handled_freeze hcheck h

example : (calls ([], .empty) [⟨"Game.Frozen", 0, 1, .data, {}, {}, [], none, none, .remove⟩,
    ⟨"Game.Odd", 6, 4, .data, {}, {}, [], none, none, .remove⟩, .plain .hp "Game.Health",
    ⟨"Game.Frozen", 0, 1, .data, {}, {}, [], none, none, .remove⟩]).1 = [⟨0⟩, ⟨1⟩, ⟨0⟩] := by
  decide +kernel

end Registry
end EntityWorld
