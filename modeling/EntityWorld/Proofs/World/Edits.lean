import EntityWorld.Proofs.World.Growth
set_option autoImplicit false

/-!
Edits: the operations on the value of one id of one entity. Each is described by what it does to
the contents, where `check` tells which type an id may be stored with.
-/
namespace EntityWorld

inductive Answer where
  | done
  | whether (b : Bool)
  | type (d : TypeDescriptor)

def Answer.tell {α β : Type} (f : α → Answer) (r : Except EcsError α × β) :
    Except EcsError Answer × β :=
  (r.1.map f, r.2)

inductive Edit where
  | add (e : Entity) (id : Id)
  | remove (e : Entity) (id : Id)
  | write (e : Entity) (h : TypeHandle) (t : HostType) (v : Value)
  | writeRef (e : Entity) (h : TypeHandle) (t : HostType) (v : Value)
  | writeValue (e : Entity) (v : ComponentValue)
  | writeValueRef (e : Entity) (v : ComponentValue)
  | writeBytes (e : Entity) (h : TypeHandle) (bytes : Bytes)
  | ensureDefault (e : Entity) (id : Id)

def Edit.target : Edit → Entity × Id
  | add e id | remove e id | ensureDefault e id => (e, id)
  | write e h _ _ | writeRef e h _ _ | writeBytes e h _ => (e, Id.component h)
  | writeValue e v | writeValueRef e v => (e, Id.component v.handle)

def Edit.run (w : World) : Edit → Except EcsError Answer × World
  | add e id => Answer.tell .whether (w.add e id)
  | remove e id => Answer.tell .whether (w.remove e id)
  | write e h t v => Answer.tell (fun _ => .done) (w.write e h t v)
  | writeRef e h t v => Answer.tell (fun _ => .done) (w.writeRef e h t v)
  | writeValue e v => Answer.tell (fun _ => .done) (w.writeValue e v)
  | writeValueRef e v => Answer.tell (fun _ => .done) (w.writeValueRef e v)
  | writeBytes e h bytes => Answer.tell (fun _ => .done) (w.writeBytes e h bytes)
  | ensureDefault e id => Answer.tell .type (w.ensureDefault e id)

namespace Contents

variable (c : Contents) (check : Id → Except EcsError TypeDescriptor)

def putTyped (e : Entity) (h : TypeHandle) (t : HostType) (v : Value) :
    Except EcsError Unit × Contents :=
  match check (Id.component h) with
  | .error err => (.error err, c)
  | .ok d =>
    match d.checkTyped t with
    | .error err => (.error err, c)
    | .ok () => c.put check e (Id.component h) v

def putBytes (e : Entity) (h : TypeHandle) (bytes : Bytes) : Except EcsError Unit × Contents :=
  match check (Id.component h) with
  | .error err => (.error err, c)
  | .ok d =>
    if d.flags.trivial = true ∧ bytes.length = d.size then
      c.put check e (Id.component h) (.plain bytes)
    else (.error (.typeMismatch d.path d.size d.align bytes.length 1), c)

def ensure (e : Entity) (id : Id) : Except EcsError TypeDescriptor × Contents :=
  match c.add check e id with
  | (.error err, c) => (.error err, c)
  | (.ok _, c) => (check id, c)

variable {c check} in
theorem get_of_add {d : Contents} {e : Entity} {id : Id} {b : Bool}
    (h : c.add check e id = (.ok b, d)) :
    (∃ m v, d e = some m ∧ m id = some v) ∧ ∃ t, check id = .ok t := by
  unfold add at h
  cases he : c e with
  | none => simp [he] at h
  | some m =>
    cases hc : check id with
    | error err => simp [he, hc] at h
    | ok t =>
      simp only [he, hc] at h
      refine ⟨?_, t, rfl⟩
      cases hm : m id with
      | some v =>
        simp only [hm] at h
        cases h
        exact ⟨m, v, he, hm⟩
      | none =>
        cases hd : t.default? with
        | none => simp [hm, hd] at h
        | some p =>
          simp only [hm, hd] at h
          cases h
          refine ⟨Function.update m id (some p.1), p.1, ?_, Function.update_self ..⟩
          rw [set, he, Option.map_some, Function.update_self]

def edit : Edit → Except EcsError Answer × Contents
  | .add e id => Answer.tell .whether (c.add check e id)
  | .remove e id => Answer.tell .whether (c.remove e id)
  | .write e h t v | .writeRef e h t v => Answer.tell (fun _ => .done) (c.putTyped check e h t v)
  | .writeValue e v | .writeValueRef e v =>
    Answer.tell (fun _ => .done) (c.put check e (Id.component v.handle) v.value)
  | .writeBytes e h bytes => Answer.tell (fun _ => .done) (c.putBytes check e h bytes)
  | .ensureDefault e id => Answer.tell .type (c.ensure check e id)

end Contents

theorem Id.component_inj {h k : TypeHandle} (heq : Id.component h = Id.component k) : h = k := by
  rw [← Id.typeHandle_component h, heq, Id.typeHandle_component]

theorem Id.isWildcard_component (h : TypeHandle) : (Id.component h).isWildcard = false := by
  rw [isWildcard, isPair_component, Bool.false_and]

namespace World

variable {w : World} {e : Entity} {id : Id}

theorem Does.tell {α : Type} {r : Except EcsError α × World} {s : Except EcsError α × Contents}
    (h : w.Does r s) (f : α → Answer) : w.Does (Answer.tell f r) (Answer.tell f s) :=
  h.map fun result => result.map f

theorem checkId_component (w : World) (h : TypeHandle) :
    w.checkId (Id.component h) = w.descriptor h := by
  simp only [checkId, Id.typeHandle_component, Id.isWildcard_component, Id.isPair_component]
  cases w.descriptor h <;> simp

theorem WellFormed.putTyped (h : w.WellFormed) (hf : w.Fits) (e : Entity) (k : TypeHandle)
    (t : HostType) (v : Value) (how : Transfer) :
    w.Does (w.putTyped e k t v how) (w.contents.putTyped w.checkId e k t v) := by
  unfold World.putTyped Contents.putTyped
  rw [checkId_component]
  cases w.descriptor k with
  | error err => exact .refl h _
  | ok d =>
    simp only
    cases d.checkTyped t with
    | error err => exact .refl h _
    | ok u => exact h.put hf e _ v how

theorem WellFormed.writeValue (h : w.WellFormed) (hf : w.Fits) (e : Entity) (v : ComponentValue) :
    w.Does (w.writeValue e v) (w.contents.put w.checkId e (Id.component v.handle) v.value) := by
  have hput := h.put hf e (Id.component v.handle) v.value .move
  unfold World.writeValue
  split
  · next hr =>
    rw [hr] at hput
    exact hput
  · next hr =>
    rw [hr] at hput
    exact hput.note v.dropEvents

theorem WellFormed.writeBytes (h : w.WellFormed) (hf : w.Fits) (e : Entity) (k : TypeHandle)
    (bytes : Bytes) :
    w.Does (w.writeBytes e k bytes) (w.contents.putBytes w.checkId e k bytes) := by
  unfold World.writeBytes Contents.putBytes ComponentValue.ofBytes ComponentValue.find
  rw [checkId_component, World.descriptor, World.descriptor?]
  cases hd : w.registry.descriptor? k with
  | none => exact .refl h _
  | some d =>
    have hk : d.handle = k := h.registry.numbered k d hd
    by_cases hok : d.flags.trivial = true ∧ bytes.length = d.size
    · have hput := h.writeValue hf e ⟨d, .plain bytes⟩
      simp only [ComponentValue.handle, hk] at hput
      simpa [bind, Except.bind, pure, Except.pure, hok] using hput
    · have hsame := Does.refl (α := Except EcsError Unit) h
        (.error (.typeMismatch d.path d.size d.align bytes.length 1))
      simpa [bind, Except.bind, throw, throwThe, MonadExceptOf.throw, hok] using hsame

theorem WellFormed.ensureDefault (h : w.WellFormed) (hf : w.Fits) (e : Entity) (id : Id) :
    w.Does (w.ensureDefault e id) (w.contents.ensure w.checkId e id) := by
  have hadd := h.add hf e id
  unfold World.ensureDefault Contents.ensure
  cases hs : w.contents.add w.checkId e id with
  | mk a c =>
    cases hr : w.add e id with
    | mk r v =>
      rw [hs, hr] at hadd
      obtain ⟨hanswer, hbecomes⟩ := hadd
      simp only at hanswer hbecomes
      subst hanswer
      cases r with
      | error err => exact ⟨rfl, hbecomes⟩
      | ok b =>
        obtain ⟨⟨m, u, hm, hu⟩, t, ht⟩ := Contents.get_of_add hs
        rw [← hbecomes.contents] at hm
        have hpeek : v.peek e id = some u := by rw [peek_of_contents hm, hu]
        have hdesc : v.descriptor id.typeHandle = w.checkId id := by
          rw [ht, descriptor, descriptor?, hbecomes.registry, (checkId_eq_ok ht).1]
        simp only [hpeek, hdesc]
        exact ⟨rfl, hbecomes⟩

theorem WellFormed.edit (h : w.WellFormed) (hf : w.Fits) (x : Edit) :
    w.Does (x.run w) (w.contents.edit w.checkId x) := by
  cases x with
  | add e id => exact (h.add hf e id).tell _
  | remove e id => exact (h.remove hf e id).tell _
  | write e k t v => exact (h.putTyped hf e k t v .move).tell _
  | writeRef e k t v => exact (h.putTyped hf e k t v .copy).tell _
  | writeValue e v => exact (h.writeValue hf e v).tell _
  | writeValueRef e v => exact (h.put hf e _ v.value .copy).tell _
  | writeBytes e k bytes => exact (h.writeBytes hf e k bytes).tell _
  | ensureDefault e id => exact (h.ensureDefault hf e id).tell _

end World
end EntityWorld
