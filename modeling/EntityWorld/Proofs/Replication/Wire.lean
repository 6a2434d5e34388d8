import EntityWorld.Replication.Wire
import Mathlib.Data.List.Sort
set_option autoImplicit false

/-!
The format of snapshots. A list of records has one written form if its ids are all different, and
none otherwise; and only the written form of a list in ascending order is read.
-/
namespace EntityWorld

namespace Wire

variable {r : Record} {rs rs' : List Record} {bs rest : Bytes} {previous : Option UInt32}

/-- The number of records and the length of each payload have room in four bytes. -/
structure Framable (rs : List Record) : Prop where
  count : rs.length < 0x100000000
  payloads : ∀ r ∈ rs, r.payload.length < 0x100000000

/-- The ids ascend strictly. -/
def Ascending (rs : List Record) : Prop := (rs.map Record.typeId).Pairwise (· < ·)

def AscendingFrom (previous : Option UInt32) (rs : List Record) : Prop :=
  (∀ p, previous = some p → ∀ r ∈ rs, p < r.typeId) ∧ Ascending rs

def body (rs : List Record) : Bytes := rs.flatMap Record.toBytes

def written (rs : List Record) : Bytes := littleEndian 4 rs.length ++ body rs

theorem body_cons (r : Record) (rs : List Record) : body (r :: rs) = r.toBytes ++ body rs :=
  List.flatMap_cons

theorem Framable.perm (h : Framable rs) (hp : rs'.Perm rs) : Framable rs' :=
  ⟨hp.length_eq ▸ h.count, fun r hr => h.payloads r (hp.mem_iff.1 hr)⟩

/-! ### Ids in order -/

theorem ascends_iff {id : UInt32} :
    ascends previous id = true ↔ ∀ p, previous = some p → p < id := by
  cases previous with
  | none => simp [ascends]
  | some p => simp [ascends]

theorem ascendingFrom_nil : AscendingFrom previous [] := ⟨fun _ _ _ => nofun, .nil⟩

theorem ascendingFrom_cons : AscendingFrom previous (r :: rs) ↔
    ascends previous r.typeId = true ∧ AscendingFrom (some r.typeId) rs := by
  rw [ascends_iff, AscendingFrom, AscendingFrom, Ascending, Ascending, List.map_cons,
    List.pairwise_cons]
  constructor
  · intro h
    obtain ⟨hprevious, hr, hrs⟩ := h
    refine ⟨fun p hp => hprevious p hp r List.mem_cons_self, fun p hp x hx => ?_, hrs⟩
    obtain rfl := Option.some.inj hp
    exact hr x.typeId (List.mem_map_of_mem hx)
  · intro h
    obtain ⟨hprevious, hr, hrs⟩ := h
    have hlater : ∀ x ∈ rs, r.typeId < x.typeId := hr r.typeId rfl
    refine ⟨fun p hp x hx => ?_, fun id hid => ?_, hrs⟩
    · obtain rfl | hx := List.mem_cons.1 hx
      · exact hprevious p hp
      · exact UInt32.lt_trans (hprevious p hp) (hlater x hx)
    · obtain ⟨x, hx, rfl⟩ := List.mem_map.1 hid
      exact hlater x hx

theorem ascendingFrom_none : AscendingFrom none rs ↔ Ascending rs :=
  and_iff_right fun _ => nofun

theorem sortRecords_perm (rs : List Record) : (sortRecords rs).Perm rs := List.mergeSort_perm _ _

theorem sortRecords_sorted (rs : List Record) :
    ((sortRecords rs).map Record.typeId).Pairwise (· ≤ ·) := by
  rw [List.pairwise_map]
  have hsorted : (sortRecords rs).Pairwise fun a b => decide (a.typeId ≤ b.typeId) = true := by
    refine List.pairwise_mergeSort (fun a b c hab hbc => ?_) (fun a b => ?_) rs
    · exact decide_eq_true (UInt32.le_trans (of_decide_eq_true hab) (of_decide_eq_true hbc))
    · simpa using UInt32.le_total a.typeId b.typeId
  exact hsorted.imp fun h => of_decide_eq_true h

theorem Ascending.nodup (h : Ascending rs) : (rs.map Record.typeId).Nodup :=
  List.Pairwise.imp (fun hlt => UInt32.ne_of_lt hlt) h

theorem ascending_sortRecords_iff :
    Ascending (sortRecords rs) ↔ (rs.map Record.typeId).Nodup := by
  rw [← ((sortRecords_perm rs).map Record.typeId).nodup_iff]
  constructor
  · intro h
    exact h.nodup
  · intro h
    refine ((sortRecords_sorted rs).and h).imp fun hle => ?_
    exact UInt32.lt_of_le_of_ne hle.1 hle.2

theorem Ascending.eq_of_perm (h : Ascending rs) (h' : Ascending rs') (hp : rs.Perm rs') :
    rs = rs' := by
  have hids : rs.Pairwise fun a b => a.typeId < b.typeId := List.pairwise_map.1 h
  refine hp.eq_of_pairwise ?_ hids (List.pairwise_map.1 h')
  intro a b _ _ hab hba
  exact absurd (UInt32.lt_trans hab hba) (UInt32.lt_irrefl _)

theorem Ascending.sortRecords_eq (h : Ascending rs) : sortRecords rs = rs :=
  (ascending_sortRecords_iff.2 h.nodup).eq_of_perm h (sortRecords_perm rs)

/-! ### Writing -/

theorem writeRecords_cons (done : Bytes) (ha : ascends previous r.typeId = true)
    (hr : r.payload.length < 0x100000000) : writeRecords ⟨done, none⟩ previous (r :: rs) =
      writeRecords ⟨done ++ r.toBytes, none⟩ (some r.typeId) rs := by
  have hsize : ¬ r.payload.length ≥ 0x100000000 := Nat.not_le.2 hr
  simp only [writeRecords, ha, Bool.not_true, if_neg Bool.false_ne_true, if_neg hsize,
    Sink.writeAll, Sink.write, Record.toBytes, List.append_assoc]

theorem writeRecords_of_ascending (done : Bytes) (hrs : ∀ r ∈ rs, r.payload.length < 0x100000000)
    (h : AscendingFrom previous rs) :
    writeRecords ⟨done, none⟩ previous rs = (.ok (), ⟨done ++ body rs, none⟩) := by
  induction rs generalizing done previous with
  | nil => simp only [writeRecords, body, List.flatMap_nil, List.append_nil]
  | cons r rest ih =>
    obtain ⟨hr, hrest⟩ := List.forall_mem_cons.1 hrs
    obtain ⟨ha, hlater⟩ := ascendingFrom_cons.1 h
    rw [writeRecords_cons done ha hr, ih _ hrest hlater, body_cons, List.append_assoc]

theorem writeRecords_of_not_ascending (done : Bytes)
    (hrs : ∀ r ∈ rs, r.payload.length < 0x100000000) (h : ¬ AscendingFrom previous rs) :
    ∃ before r after, rs = before ++ r :: after ∧
      ascends (((before.map Record.typeId).getLast?).or previous) r.typeId = false ∧
      ∃ s, writeRecords ⟨done, none⟩ previous rs = (.error (.outOfOrder r.typeId), s) := by
  induction rs generalizing done previous with
  | nil => exact absurd ascendingFrom_nil h
  | cons r rest ih =>
    obtain ⟨hr, hrest⟩ := List.forall_mem_cons.1 hrs
    cases ha : ascends previous r.typeId with
    | false =>
      refine ⟨[], r, rest, rfl, ha, ⟨done, none⟩, ?_⟩
      simp only [writeRecords, ha, Bool.not_false, if_true]
    | true =>
      obtain ⟨before, x, after, rfl, hx, hwrite⟩ := ih (done ++ r.toBytes) hrest fun hlater =>
        h (ascendingFrom_cons.2 ⟨ha, hlater⟩)
      refine ⟨r :: before, x, after, rfl, ?_, ?_⟩
      · rw [List.map_cons, List.getLast?_cons, ← hx]
        cases (before.map Record.typeId).getLast? <;> rfl
      · rw [writeRecords_cons done ha hr]
        exact hwrite

theorem encodeInto_of_framable (h : Framable rs) : encodeInto ⟨[], none⟩ (sortRecords rs) =
    writeRecords ⟨littleEndian 4 rs.length, none⟩ none (sortRecords rs) := by
  have hlength : (sortRecords rs).length = rs.length := (sortRecords_perm rs).length_eq
  have hsize : ¬ rs.length ≥ 0x100000000 := Nat.not_le.2 h.count
  simp only [encodeInto, hlength, if_neg hsize, Sink.write, List.nil_append]

theorem encode_of_nodup (h : Framable rs) (hnodup : (rs.map Record.typeId).Nodup) :
    encode rs = .ok (written (sortRecords rs)) := by
  have hsorted := ascendingFrom_none.2 (ascending_sortRecords_iff.2 hnodup)
  rw [encode, encodeInto_of_framable h,
    writeRecords_of_ascending _ (h.perm (sortRecords_perm rs)).payloads hsorted, written,
    (sortRecords_perm rs).length_eq]

theorem encode_of_ascending (h : Framable rs) (hasc : Ascending rs) :
    encode rs = .ok (written rs) := by
  rw [encode_of_nodup h hasc.nodup, hasc.sortRecords_eq]

theorem encode_of_not_nodup (h : Framable rs) (hnodup : ¬ (rs.map Record.typeId).Nodup) :
    ∃ r ∈ rs, 2 ≤ (rs.map Record.typeId).count r.typeId ∧
      encode rs = .error (.outOfOrder r.typeId) := by
  have hperm := sortRecords_perm rs
  have hno : ¬ AscendingFrom none (sortRecords rs) := fun hasc =>
    hnodup (ascending_sortRecords_iff.1 (ascendingFrom_none.1 hasc))
  obtain ⟨before, r, after, heq, hr, s, hwrite⟩ :=
    writeRecords_of_not_ascending (littleEndian 4 rs.length) (h.perm hperm).payloads hno
  refine ⟨r, hperm.mem_iff.1 (heq ▸ List.mem_append_right _ List.mem_cons_self), ?_, ?_⟩
  · -- the id before `r` is not less, and not greater as the records are sorted
    obtain ⟨p, hp, hle⟩ : ∃ p, (before.map Record.typeId).getLast? = some p ∧ ¬ p < r.typeId := by
      rw [← Bool.not_eq_true, ascends_iff, Option.or_none] at hr
      simpa using hr
    obtain ⟨front, hfront⟩ := List.getLast?_eq_some_iff.1 hp
    have hsorted := sortRecords_sorted rs
    rw [heq, List.map_append, hfront, List.map_cons, List.append_assoc, List.singleton_append]
      at hsorted
    have hpr : p ≤ r.typeId :=
      (List.pairwise_cons.1 (List.pairwise_append.1 hsorted).2.1).1 _ List.mem_cons_self
    have hsame : p = r.typeId := UInt32.le_antisymm hpr (UInt32.not_lt.1 hle)
    rw [← (hperm.map Record.typeId).count_eq, heq, List.map_append, hfront, List.map_cons, hsame]
    simp only [List.append_assoc, List.count_append, List.count_cons_self, List.singleton_append]
    omega
  · rw [encode, encodeInto_of_framable h, hwrite]

theorem payloads_of_writeRecords {s s' : Sink}
    (h : writeRecords s previous rs = (.ok (), s')) :
    ∀ r ∈ rs, r.payload.length < 0x100000000 := by
  induction rs generalizing s previous with
  | nil => exact nofun
  | cons r later ih =>
    rw [writeRecords] at h
    split at h
    · cases h
    · split at h
      · cases h
      · next hsize =>
        split at h
        · exact List.forall_mem_cons.2 ⟨Nat.lt_of_not_le hsize, ih h⟩
        · cases h

theorem encode_eq_ok_iff : encode rs = .ok bs ↔
    Framable rs ∧ (rs.map Record.typeId).Nodup ∧ bs = written (sortRecords rs) := by
  constructor
  · intro h
    have hfits : Framable rs := by
      have hperm := sortRecords_perm rs
      unfold encode encodeInto at h
      split at h
      · next hinto =>
        split at hinto
        · cases hinto
        · next hcount =>
          rw [hperm.length_eq] at hcount
          simp only [Sink.write] at hinto
          exact ⟨Nat.lt_of_not_le hcount, fun r hr =>
            payloads_of_writeRecords hinto r (hperm.mem_iff.2 hr)⟩
      · cases h
    by_cases hnodup : (rs.map Record.typeId).Nodup
    · rw [encode_of_nodup hfits hnodup] at h
      exact ⟨hfits, hnodup, (Except.ok.inj h).symm⟩
    · obtain ⟨r, -, -, hrefuse⟩ := encode_of_not_nodup hfits hnodup
      rw [hrefuse] at h
      cases h
  · intro h
    obtain ⟨hfits, hnodup, rfl⟩ := h
    exact encode_of_nodup hfits hnodup

/-! ### Reading -/

theorem take_append (offset : Nat) {n : Nat} (hn : bs.length = n) :
    Cursor.take ⟨bs ++ rest, offset⟩ n = .ok (bs, ⟨rest, offset + n⟩) := by
  subst hn
  simp [Cursor.take]

theorem u32_append (offset : Nat) (n : UInt32) :
    Cursor.u32 ⟨littleEndian 4 n.toNat ++ rest, offset⟩ = .ok (n, ⟨rest, offset + 4⟩) := by
  have hlt : n.toNat < Nat.pow 256 4 := n.toNat_lt
  rw [Cursor.u32, take_append offset (length_littleEndian 4 n.toNat)]
  simp only [bind, Except.bind, pure, Except.pure, ofLittleEndian_littleEndian 4 _ hlt,
    UInt32.ofNat_toNat]

theorem take_eq_ok {c c' : Cursor} {n : Nat} (h : c.take n = .ok (bs, c')) :
    c.rest = bs ++ c'.rest ∧ bs.length = n := by
  unfold Cursor.take at h
  split at h
  · cases h
  · next hlt =>
    cases h
    exact ⟨(List.take_append_drop n c.rest).symm, by rw [List.length_take]; omega⟩

theorem u32_eq_ok {c c' : Cursor} {n : UInt32} (h : c.u32 = .ok (n, c')) :
    c.rest = littleEndian 4 n.toNat ++ c'.rest := by
  unfold Cursor.u32 at h
  cases ht : c.take 4 with
  | error err =>
    rw [ht] at h
    cases h
  | ok p =>
    obtain ⟨bs, c₁⟩ := p
    rw [ht] at h
    cases h
    obtain ⟨hrest, hlength⟩ := take_eq_ok ht
    have hlt : ofLittleEndian bs < 2 ^ 32 := by
      have := ofLittleEndian_lt bs
      rwa [hlength] at this
    rw [hrest, UInt32.toNat_ofNat', Nat.mod_eq_of_lt hlt, ← hlength,
      littleEndian_ofLittleEndian]

theorem toNat_ofNat_of_lt {n : Nat} (h : n < 0x100000000) : (UInt32.ofNat n).toNat = n := by
  rw [UInt32.toNat_ofNat', Nat.mod_eq_of_lt h]

theorem readRecords_body (hrs : ∀ r ∈ rs, r.payload.length < 0x100000000)
    (h : AscendingFrom previous rs) (offset : Nat) :
    readRecords rs.length previous ⟨body rs ++ rest, offset⟩ =
      .ok (rs, ⟨rest, offset + (body rs).length⟩) := by
  induction rs generalizing previous offset with
  | nil => rfl
  | cons r later ih =>
    obtain ⟨hr, hlater⟩ := List.forall_mem_cons.1 hrs
    obtain ⟨ha, hasc⟩ := ascendingFrom_cons.1 h
    have hsize := toNat_ofNat_of_lt hr
    have hbytes : body (r :: later) ++ rest = littleEndian 4 r.typeId.toNat ++
        (littleEndian 4 (UInt32.ofNat r.payload.length).toNat ++
          (r.payload ++ (body later ++ rest))) := by
      rw [hsize, body_cons, Record.toBytes]
      simp only [List.append_assoc]
    have hlength : (body (r :: later)).length = 4 + 4 + r.payload.length + (body later).length := by
      rw [body_cons, List.length_append, Record.length_toBytes, Record.wireSize]
    rw [List.length_cons, readRecords, hbytes, u32_append]
    simp only [bind, Except.bind, pure, Except.pure, u32_append]
    rw [hsize, take_append _ rfl]
    simp only [ha, Bool.not_true, if_neg Bool.false_ne_true]
    rw [ih hlater hasc, hlength]
    simp only [Nat.add_assoc]

theorem readRecords_eq_ok {count : Nat} {c c' : Cursor}
    (h : readRecords count previous c = .ok (rs, c')) :
    c.rest = body rs ++ c'.rest ∧ rs.length = count ∧ AscendingFrom previous rs ∧
      ∀ r ∈ rs, r.payload.length < 0x100000000 := by
  induction count generalizing previous c rs with
  | zero =>
    cases h
    exact ⟨rfl, rfl, ascendingFrom_nil, nofun⟩
  | succ n ih =>
    rw [readRecords] at h
    simp only [bind, Except.bind, pure, Except.pure, throw, throwThe, MonadExceptOf.throw] at h
    cases hid : c.u32 with
    | error err => simp [hid] at h
    | ok p =>
      obtain ⟨id, c₁⟩ := p
      simp only [hid] at h
      cases hsize : c₁.u32 with
      | error err => simp [hsize] at h
      | ok p =>
        obtain ⟨size, c₂⟩ := p
        simp only [hsize] at h
        cases htake : c₂.take size.toNat with
        | error err => simp [htake] at h
        | ok p =>
          obtain ⟨payload, c₃⟩ := p
          simp only [htake] at h
          cases ha : ascends previous id with
          | false => simp [ha] at h
          | true =>
            simp only [ha, Bool.not_true, if_neg Bool.false_ne_true] at h
            cases hread : readRecords n (some id) c₃ with
            | error err => simp [hread] at h
            | ok p =>
              obtain ⟨later, c₄⟩ := p
              simp only [hread] at h
              cases h
              obtain ⟨hrest, hlength, hasc, hlater⟩ := ih hread
              obtain ⟨hpayload, hn⟩ := take_eq_ok htake
              have hfits : payload.length < 0x100000000 := hn ▸ size.toNat_lt
              refine ⟨?_, by rw [List.length_cons, hlength], ascendingFrom_cons.2 ⟨ha, hasc⟩,
                List.forall_mem_cons.2 ⟨hfits, hlater⟩⟩
              rw [u32_eq_ok hid, u32_eq_ok hsize, hpayload, hrest, body_cons, Record.toBytes, hn]
              simp only [List.append_assoc]

theorem decode_eq_ok_iff :
    decode bs = .ok rs ↔ Framable rs ∧ Ascending rs ∧ bs = written rs := by
  constructor
  · intro h
    unfold decode at h
    simp only [bind, Except.bind, pure, Except.pure, throw, throwThe, MonadExceptOf.throw] at h
    cases hcount : Cursor.u32 ⟨bs, 0⟩ with
    | error err => simp [hcount] at h
    | ok p =>
      obtain ⟨count, c₁⟩ := p
      simp only [hcount] at h
      cases hread : readRecords count.toNat none c₁ with
      | error err => simp [hread] at h
      | ok p =>
        obtain ⟨found, c₂⟩ := p
        simp only [hread] at h
        split at h
        · next hempty =>
          cases h
          obtain ⟨hrest, hlength, hasc, hfits⟩ := readRecords_eq_ok hread
          refine ⟨⟨hlength ▸ count.toNat_lt, hfits⟩, ascendingFrom_none.1 hasc, ?_⟩
          have hbytes : bs = littleEndian 4 count.toNat ++ c₁.rest := u32_eq_ok hcount
          rw [hbytes, hrest, List.isEmpty_iff.1 hempty, List.append_nil, written, hlength]
        · cases h
  · intro h
    obtain ⟨hfits, hasc, rfl⟩ := h
    have hcount := toNat_ofNat_of_lt hfits.count
    have hread : readRecords rs.length none ⟨body rs, 0 + 4⟩ =
        .ok (rs, ⟨[], 0 + 4 + (body rs).length⟩) := by
      rw [← readRecords_body hfits.payloads (ascendingFrom_none.2 hasc), List.append_nil]
    unfold decode written
    rw [← hcount, u32_append]
    simp only [bind, Except.bind, pure, Except.pure, hcount, hread, List.isEmpty_nil, if_true]

theorem decode_of_encode (h : encode rs = .ok bs) : decode bs = .ok (sortRecords rs) := by
  obtain ⟨hfits, hnodup, rfl⟩ := encode_eq_ok_iff.1 h
  exact decode_eq_ok_iff.2
    ⟨hfits.perm (sortRecords_perm rs), ascending_sortRecords_iff.2 hnodup, rfl⟩

/-- Snapshots and lists of records in ascending order stand for each other: records with ids of
their own are written and read back in order, an id that comes twice is refused, and bytes that are
read are what the records are written as. -/
theorem encode_decode :
    (∀ rs, Framable rs → (rs.map Record.typeId).Nodup → ∃ bs sorted, encode rs = .ok bs ∧
      decode bs = .ok sorted ∧ sorted.Perm rs ∧ Ascending sorted) ∧
    (∀ rs, Framable rs → ¬ (rs.map Record.typeId).Nodup → ∃ r ∈ rs,
      2 ≤ (rs.map Record.typeId).count r.typeId ∧ encode rs = .error (.outOfOrder r.typeId)) ∧
    ∀ bs rs, decode bs = .ok rs → Ascending rs ∧ encode rs = .ok bs := by
  refine ⟨fun rs hfits hnodup => ?_, fun rs => encode_of_not_nodup, fun bs rs hread => ?_⟩
  · have hperm := sortRecords_perm rs
    have hasc := ascending_sortRecords_iff.2 hnodup
    exact ⟨written (sortRecords rs), sortRecords rs, encode_of_nodup hfits hnodup,
      decode_eq_ok_iff.2 ⟨hfits.perm hperm, hasc, rfl⟩, hperm, hasc⟩
  · obtain ⟨hfits, hasc, rfl⟩ := decode_eq_ok_iff.1 hread
    exact ⟨hasc, encode_of_ascending hfits hasc⟩

theorem encode_decode_shuffled :
    (∃ bs, encode [⟨9, [1]⟩, ⟨3, [2, 2]⟩, ⟨5, []⟩] = .ok bs ∧
      decode bs = .ok [⟨3, [2, 2]⟩, ⟨5, []⟩, ⟨9, [1]⟩] ∧
      encode [⟨3, [2, 2]⟩, ⟨5, []⟩, ⟨9, [1]⟩] = .ok bs) ∧
    encode [⟨4, []⟩, ⟨4, [7]⟩] = .error (.outOfOrder 4) := by
  obtain ⟨hwrites, hrefuses, hreads⟩ := encode_decode
  constructor
  · have hin : Ascending [⟨3, [2, 2]⟩, ⟨5, []⟩, ⟨9, [1]⟩] := by unfold Ascending; decide
    obtain ⟨bs, sorted, hwrite, hread, hperm, hasc⟩ :=
      hwrites [⟨9, [1]⟩, ⟨3, [2, 2]⟩, ⟨5, []⟩] ⟨by decide, by decide⟩ (by decide)
    obtain rfl := hasc.eq_of_perm hin (hperm.trans (by decide))
    exact ⟨bs, hwrite, hread, (hreads bs _ hread).2⟩
  · obtain ⟨r, hr, -, hrefuse⟩ := hrefuses [⟨4, []⟩, ⟨4, [7]⟩] ⟨by decide, by decide⟩ (by decide)
    simp only [List.mem_cons, List.not_mem_nil, or_false] at hr
    obtain rfl | rfl := hr <;> exact hrefuse

end Wire
end EntityWorld
