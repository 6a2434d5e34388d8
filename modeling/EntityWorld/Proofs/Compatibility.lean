import EntityWorld.Proofs.Catalogue
set_option autoImplicit false

/-!
What the answer of a registration is worth. The type that answers a description has its path and
its layout; whether it is a relationship and which values it takes is decided by the description
that came first under the path.
-/
namespace EntityWorld

namespace TypeDescriptor

variable {e : TypeDescriptor} {desc : TypeDescription}

/-- The type is what the description asks for. -/
structure Suits (e : TypeDescriptor) (desc : TypeDescription) : Prop where
  path : e.path = desc.path
  size : e.size = desc.size
  align : e.align = desc.align
  relationship_iff : e.classification = .relationship ↔ desc.classification = .relationship
  accepts : ∀ t, desc.hostType = some t → e.accepts t = true

/-- What the type is for sure if it answers the description. -/
structure Resembles (e : TypeDescriptor) (desc : TypeDescription) : Prop where
  path : e.path = desc.path
  size : e.size = desc.size
  align : e.align = desc.align
  declared : e.classification = .relationship → desc.classification = .relationship
  /-- Only a tag can answer in the place of a relationship. -/
  related : desc.classification = .relationship →
    e.classification = .relationship ∨ e.classification = .tag

/-- How a type falls short of a description that it resembles. -/
inductive Misses (e : TypeDescriptor) (desc : TypeDescription) : Prop where
  | relationship : desc.classification = .relationship → e.classification = .tag → Misses e desc
  | layout (t : HostType) : desc.hostType = some t → t.size ≠ desc.size ∨ t.align ≠ desc.align →
    Misses e desc
  | hostType (t own : HostType) : desc.hostType = some t → e.hostType = some own → own ≠ t →
    Misses e desc

theorem accepts_iff {t : HostType} : e.accepts t = true ↔
    e.size = t.size ∧ e.align = t.align ∧ ∀ own, e.hostType = some own → own = t := by
  unfold accepts
  cases e.hostType <;> simp [and_assoc]

theorem Resembles.suits_iff (h : e.Resembles desc) : e.Suits desc ↔ ¬ e.Misses desc := by
  constructor
  · intro hs hm
    cases hm with
    | relationship hrel htag =>
      have hclass := htag.symm.trans (hs.relationship_iff.2 hrel)
      cases hclass
    | layout t ht hne =>
      obtain ⟨hsize, halign, -⟩ := accepts_iff.1 (hs.accepts t ht)
      obtain hne | hne := hne
      · exact hne (hsize.symm.trans hs.size)
      · exact hne (halign.symm.trans hs.align)
    | hostType t own ht hown hne => exact hne ((accepts_iff.1 (hs.accepts t ht)).2.2 own hown)
  · intro hno
    refine ⟨h.path, h.size, h.align, ⟨h.declared, fun hrel => ?_⟩, fun t ht => accepts_iff.2 ?_⟩
    · exact (h.related hrel).resolve_right fun htag => hno (.relationship hrel htag)
    · have hlayout : t.size = desc.size ∧ t.align = desc.align := by
        by_contra hne
        exact hno (.layout t ht (not_and_or.1 hne))
      refine ⟨h.size.trans hlayout.1.symm, h.align.trans hlayout.2.symm, fun own hown => ?_⟩
      by_contra hne
      exact hno (.hostType t own ht hown hne)

theorem Resembles.of_sameShape (hpath : e.path = desc.path) (hs : e.sameShape desc = true) :
    e.Resembles desc := by
  unfold sameShape at hs
  simp only [Bool.and_eq_true, Bool.or_eq_true, beq_iff_eq] at hs
  obtain ⟨⟨hsize, halign⟩, hclass⟩ := hs
  refine ⟨hpath, hsize, halign, fun hrel => ?_, fun hrel => ?_⟩
  · obtain heq | ⟨htag, -⟩ := hclass
    · exact heq.symm.trans hrel
    · cases htag.symm.trans hrel
  · exact hclass.imp (fun heq => heq.trans hrel) fun htag => htag.1

end TypeDescriptor

namespace Registry

variable {r r' : Registry} {h : TypeHandle} {e : TypeDescriptor} {desc : TypeDescription}
  {ds : List TypeDescription}

/-- A registration keeps what it promises: a type that suits the description, or word of what is
wrong, which is the description itself or that the path is taken by a type that does not suit. -/
structure Honours (r : Registry) (desc : TypeDescription) : Prop where
  found : ∀ h r', r.register desc = .ok (h, r') → ∃ e, r'.descriptor? h = some e ∧ e.Suits desc
  refused : ∀ h e, desc.check = .ok () → r.lookup desc.path = some h → r.descriptor? h = some e →
    ¬ e.Suits desc → r.register desc = .error (.conflict desc.path)
  faulty : ∀ err, desc.check = .error err → r.register desc = .error err

def Answers (r : Registry) (desc : TypeDescription) (e : TypeDescriptor) : Prop :=
  ∃ h r', r.register desc = .ok (h, r') ∧ r'.descriptor? h = some e

theorem Honours.suits (hh : r.Honours desc) (he : r.Answers desc e) : e.Suits desc := by
  obtain ⟨h, r', hr, he⟩ := he
  obtain ⟨d, hd, hsuits⟩ := hh.found h r' hr
  obtain rfl := Option.some.inj (hd.symm.trans he)
  exact hsuits

theorem Filed.resembles (hf : Filed ds r) (he : r.Answers desc e) : e.Resembles desc := by
  obtain ⟨h, r', hr, he⟩ := he
  obtain ⟨d, hd, hpath, hs⟩ := hf.register_found hr
  obtain rfl := Option.some.inj (hd.symm.trans he)
  exact .of_sameShape hpath hs

theorem register_of_not_sameShape (hc : desc.check = .ok ()) (hl : r.lookup desc.path = some h)
    (he : r.descriptor? h = some e) (hs : e.sameShape desc = false) :
    r.register desc = .error (.conflict desc.path) := by
  simp [register, hc, hl, he, hs]

theorem Filed.honours_unless (hf : Filed ds r) :
    r.Honours desc ↔ ∀ e, r.Answers desc e → ¬ e.Misses desc := by
  constructor
  · intro hh e he
    exact (hf.resembles he).suits_iff.1 (hh.suits he)
  · intro hno
    refine ⟨fun h r' hr => ?_, fun h e hc hl he hnot => ?_, fun err herr => ?_⟩
    · obtain ⟨e, he, -⟩ := hf.register_found hr
      have hanswers : r.Answers desc e := ⟨h, r', hr, he⟩
      exact ⟨e, he, (hf.resembles hanswers).suits_iff.2 (hno e hanswers)⟩
    · refine register_of_not_sameShape hc hl he (Bool.eq_false_iff.2 fun hs => hnot ?_)
      have hanswers : r.Answers desc e := ⟨h, r, register_of_sameShape hc hl he hs, he⟩
      exact (hf.resembles hanswers).suits_iff.2 (hno e hanswers)
    · simp only [Registry.register, herr]

/-- After any calls, the type that answers a description has its path and its layout, and is a
relationship only if it was described as one. It is all that was asked for unless it is a tag in the
place of a relationship, or refuses the values of the host type named in the description: for its
own values are of another one, or the description has not the layout of the host type it names. -/
theorem honours_iff (ds : List TypeDescription) (desc : TypeDescription) :
    (∀ e, (calls ([], .empty) ds).2.Answers desc e → e.Resembles desc) ∧
      ((calls ([], .empty) ds).2.Honours desc ↔
        ∀ e, (calls ([], .empty) ds).2.Answers desc e → ¬ e.Misses desc) := by
  have hf : Filed ds (calls ([], .empty) ds).2 := Filed.empty.calls (x := ([], .empty)) ds
  exact ⟨fun e => hf.resembles, hf.honours_unless⟩

/-- A relationship is described under the path of a tag, and the tag is the answer. Of two host
types of the same layout under one path the second gets a type that refuses its values. -/
theorem honours_likes : ∃ likes place : TypeDescriptor,
    (calls ([], .empty) [.tag "Game.Likes"]).2.Answers
      ((TypeDescription.tag "Game.Likes").relationship .remove) likes ∧
    likes.classification = .tag ∧
    ¬ (calls ([], .empty) [.tag "Game.Likes"]).2.Honours
      ((TypeDescription.tag "Game.Likes").relationship .remove) ∧
    (calls ([], .empty) [.plain .pos "Game.Place"]).2.Answers (.plain .vel "Game.Place") place ∧
    place.accepts .vel = false ∧
    ¬ (calls ([], .empty) [.plain .pos "Game.Place"]).2.Honours (.plain .vel "Game.Place") := by
  have hlikes : (calls ([], .empty) [.tag "Game.Likes"]).2.Answers
      ((TypeDescription.tag "Game.Likes").relationship .remove)
      (freeze (.tag "Game.Likes") ⟨0⟩) := ⟨⟨0⟩, _, rfl, rfl⟩
  have hplace : (calls ([], .empty) [.plain .pos "Game.Place"]).2.Answers
      (.plain .vel "Game.Place") (freeze (.plain .pos "Game.Place") ⟨0⟩) := ⟨⟨0⟩, _, rfl, rfl⟩
  refine ⟨_, _, hlikes, rfl, fun hh => ?_, hplace, by decide, fun hh => ?_⟩
  · cases (hh.suits hlikes).relationship_iff.2 rfl
  · exact absurd ((hh.suits hplace).accepts .vel rfl) (by decide)

end Registry
end EntityWorld
