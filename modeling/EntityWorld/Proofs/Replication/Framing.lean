import EntityWorld.Proofs.Replication.Wire
set_option autoImplicit false

/-!
Snapshots that were cut short, and snapshots with bytes after their end. Decoding is a course of
reads, each of as many bytes as the bytes before it say; a course that wants more bytes than there
are tells where and how many, and how it goes on does not depend on bytes that it has not read.
-/
namespace EntityWorld.Wire

/-- A course of reads: what comes next depends on the bytes read so far. -/
inductive Course (α : Type) where
  | done (a : α)
  | refuse (typeId : UInt32)
  | read (n : Nat) (next : Bytes → Course α)

/-- Bytes that were read, and where they stood in the input. -/
structure Slice where
  offset : Nat
  bytes : Bytes
  deriving DecidableEq, Repr

def Slice.Within (s : Slice) (bs : Bytes) : Prop :=
  ∃ before after, bs = before ++ s.bytes ++ after ∧ before.length = s.offset

namespace Course

variable {α β : Type} {p : Course α} {f : α → Course β} {a : α} {bs : Bytes} {c : Cursor}
variable {offset place needed : Nat}

def run : Course α → Cursor → Except ReplicationError (α × Cursor)
  | done a, c => .ok (a, c)
  | refuse typeId, _ => .error (.outOfOrder typeId)
  | read n next, c =>
    match c.take n with
    | .ok (bs, c) => (next bs).run c
    | .error err => .error err

def slices : Course α → Cursor → List Slice
  | read n next, c =>
    match c.take n with
    | .ok (bs, c') => ⟨c.offset, bs⟩ :: (next bs).slices c'
    | .error _ => []
  | _, _ => []

def andThen : Course α → (α → Course β) → Course β
  | done a, f => f a
  | refuse typeId, _ => refuse typeId
  | read n next, f => read n fun bs => (next bs).andThen f

theorem run_andThen (p : Course α) (f : α → Course β) (c : Cursor) :
    (p.andThen f).run c = (p.run c).bind fun r => (f r.1).run r.2 := by
  induction p generalizing c with
  | done a => rfl
  | refuse typeId => rfl
  | read n next ih =>
    simp only [andThen, run]
    cases c.take n with
    | error err => rfl
    | ok r => exact ih r.1 r.2

theorem slices_andThen (p : Course α) (f : α → Course β) (c : Cursor) :
    (p.andThen f).slices c = p.slices c ++
      match p.run c with
      | .ok (a, c') => (f a).slices c'
      | .error _ => [] := by
  induction p generalizing c with
  | done a => simp [andThen, slices, run]
  | refuse typeId => simp [andThen, slices, run]
  | read n next ih =>
    simp only [andThen, slices, run]
    cases c.take n with
    | error err => rfl
    | ok r => simp [ih]

/-! ### More bytes and fewer -/

section Read

variable {n : Nat} {next : Bytes → Course α}

theorem take_of_le (hn : n ≤ bs.length) :
    Cursor.take ⟨bs, offset⟩ n = .ok (bs.take n, ⟨bs.drop n, offset + n⟩) := by
  simp [Cursor.take, Nat.not_lt.2 hn]

theorem take_of_lt (hn : bs.length < n) :
    Cursor.take ⟨bs, offset⟩ n = .error (.malformed offset (n - bs.length)) := by
  simp [Cursor.take, hn]

theorem run_read_of_le (hn : n ≤ bs.length) : (read n next).run ⟨bs, offset⟩ =
    (next (bs.take n)).run ⟨bs.drop n, offset + n⟩ := by
  rw [run, take_of_le hn]

theorem run_read_of_lt (hn : bs.length < n) : (read n next).run ⟨bs, offset⟩ =
    .error (.malformed offset (n - bs.length)) := by
  rw [run, take_of_lt hn]

theorem run_read_append (hn : n ≤ bs.length) (more : Bytes) :
    (read n next).run ⟨bs ++ more, offset⟩ =
      (next (bs.take n)).run ⟨bs.drop n ++ more, offset + n⟩ := by
  have hlonger : n ≤ (bs ++ more).length := by rw [List.length_append]; omega
  rw [run_read_of_le hlonger, List.take_append_of_le_length hn, List.drop_append_of_le_length hn]

end Read

theorem run_append (h : p.run ⟨bs, offset⟩ = .ok (a, c)) (more : Bytes) :
    p.run ⟨bs ++ more, offset⟩ = .ok (a, ⟨c.rest ++ more, c.offset⟩) := by
  induction p generalizing bs offset with
  | done b =>
    cases h
    rfl
  | refuse typeId => cases h
  | read n next ih =>
    by_cases hn : n ≤ bs.length
    · rw [run_read_of_le hn] at h
      rw [run_read_append hn]
      exact ih _ h
    · rw [run_read_of_lt (Nat.not_le.1 hn)] at h
      cases h

theorem run_of_truncated {more : Bytes} (h : p.run ⟨bs ++ more, offset⟩ = .ok (a, c))
    (hc : c.rest.length < more.length) :
    ∃ place needed, p.run ⟨bs, offset⟩ = .error (.malformed place needed) := by
  induction p generalizing bs offset with
  | done b =>
    cases h
    simp only [List.length_append] at hc
    omega
  | refuse typeId => cases h
  | read n next ih =>
    by_cases hn : n ≤ bs.length
    · rw [run_read_append hn] at h
      rw [run_read_of_le hn]
      exact ih _ h
    · exact ⟨_, _, run_read_of_lt (Nat.not_le.1 hn)⟩

theorem place_of_malformed (h : p.run ⟨bs, offset⟩ = .error (.malformed place needed)) :
    offset ≤ place ∧ place ≤ offset + bs.length ∧ 1 ≤ needed := by
  induction p generalizing bs offset with
  | done b => cases h
  | refuse typeId => cases h
  | read n next ih =>
    by_cases hn : n ≤ bs.length
    · rw [run_read_of_le hn] at h
      have hlater := ih _ h
      rw [List.length_drop] at hlater
      omega
    · rw [run_read_of_lt (Nat.not_le.1 hn)] at h
      cases h
      omega

/-- A fault stays where it is until as many bytes have come as are needed there. -/
theorem malformed_append_iff (h : p.run ⟨bs, offset⟩ = .error (.malformed place needed))
    (more : Bytes) :
    (∃ n, p.run ⟨bs ++ more, offset⟩ = .error (.malformed place n)) ↔ more.length < needed := by
  induction p generalizing bs offset with
  | done b => cases h
  | refuse typeId => cases h
  | read n next ih =>
    by_cases hn : n ≤ bs.length
    · rw [run_read_of_le hn] at h
      rw [run_read_append hn]
      exact ih _ h
    · rw [run_read_of_lt (Nat.not_le.1 hn)] at h
      cases h
      have hlength : (bs ++ more).length = bs.length + more.length := List.length_append
      by_cases hlonger : n ≤ (bs ++ more).length
      · -- the read is granted now, so whatever is still wrong is wrong further on
        refine iff_of_false (fun hex => ?_) (by omega)
        obtain ⟨k, hk⟩ := hex
        rw [run_read_of_le hlonger] at hk
        have hlater := (place_of_malformed hk).1
        omega
      · exact iff_of_true ⟨_, run_read_of_lt (Nat.not_le.1 hlonger)⟩ (by omega)

/-! ### Truncated and overlong inputs -/

def decode (p : Course α) (bs : Bytes) : Except ReplicationError α :=
  match p.run ⟨bs, 0⟩ with
  | .ok (a, c) => if c.rest.isEmpty then .ok a else .error (.trailingBytes c.rest.length)
  | .error err => .error err

theorem decode_eq_ok (h : p.decode bs = .ok a) :
    ∃ offset, p.run ⟨bs, 0⟩ = .ok (a, ⟨[], offset⟩) := by
  unfold decode at h
  split at h
  · next b c hrun =>
    split at h
    · next hempty =>
      cases h
      obtain ⟨rest, offset⟩ := c
      obtain rfl := List.isEmpty_iff.1 hempty
      exact ⟨offset, hrun⟩
    · cases h
  · cases h

theorem decode_eq_malformed_iff : p.decode bs = .error (.malformed place needed) ↔
    p.run ⟨bs, 0⟩ = .error (.malformed place needed) := by
  unfold decode
  cases p.run ⟨bs, 0⟩ with
  | error err => simp
  | ok r =>
    simp only
    split <;> simp

theorem decode_of_truncated {more : Bytes} (h : p.decode (bs ++ more) = .ok a) (hmore : more ≠ []) :
    ∃ place needed, p.decode bs = .error (.malformed place needed) := by
  obtain ⟨offset, hrun⟩ := decode_eq_ok h
  obtain ⟨place, needed, hfault⟩ := run_of_truncated hrun (List.length_pos_of_ne_nil hmore)
  exact ⟨place, needed, decode_eq_malformed_iff.2 hfault⟩

theorem decode_append {more : Bytes} (h : p.decode bs = .ok a) (hmore : more ≠ []) :
    p.decode (bs ++ more) = .error (.trailingBytes more.length) := by
  obtain ⟨offset, hrun⟩ := decode_eq_ok h
  simp [decode, run_append hrun more, hmore]

/-! ### What is read -/

theorem within_of_mem_slices (front : Bytes) (hfront : front.length = offset) :
    ∀ s ∈ p.slices ⟨bs, offset⟩, s.Within (front ++ bs) := by
  induction p generalizing bs offset front with
  | done b => exact nofun
  | refuse typeId => exact nofun
  | read n next ih =>
    by_cases hn : n ≤ bs.length
    · have hsplit : front ++ bs = front ++ bs.take n ++ bs.drop n := by simp
      have hlength : (front ++ bs.take n).length = offset + n := by simp [hfront, hn]
      rw [slices, take_of_le hn, hsplit]
      exact List.forall_mem_cons.2 ⟨⟨front, bs.drop n, rfl, hfront⟩, ih _ _ hlength⟩
    · rw [slices, take_of_lt (Nat.not_le.1 hn)]
      exact nofun

/-- No more reads are granted than there are bytes, with `credit` bytes that were read before. -/
def Thrifty (credit : Nat) (p : Course α) : Prop :=
  ∀ c, (p.slices c).length ≤ c.rest.length + credit ∧ ∀ a c', p.run c = .ok (a, c') →
    (p.slices c).length + c'.rest.length ≤ c.rest.length + credit

theorem thrifty_done (credit : Nat) (a : α) : (done a).Thrifty credit := by
  refine fun c => ⟨Nat.zero_le _, fun b c' h => ?_⟩
  cases h
  simp [slices]

theorem thrifty_refuse (credit : Nat) (typeId : UInt32) :
    (refuse typeId : Course α).Thrifty credit :=
  fun _ => ⟨Nat.zero_le _, nofun⟩

theorem thrifty_read {n credit credit' : Nat} {next : Bytes → Course α}
    (hcredit : credit' + 1 ≤ credit + n) (hnext : ∀ bs, (next bs).Thrifty credit') :
    (read n next).Thrifty credit := by
  intro c
  obtain ⟨bs, offset⟩ := c
  by_cases hn : n ≤ bs.length
  · obtain ⟨hlength, hok⟩ := hnext (bs.take n) ⟨bs.drop n, offset + n⟩
    rw [slices, take_of_le hn, run_read_of_le hn]
    simp only [List.length_cons, List.length_drop] at hlength hok ⊢
    refine ⟨by omega, fun a c' h => ?_⟩
    have := hok a c' h
    omega
  · rw [slices, take_of_lt (Nat.not_le.1 hn), run_read_of_lt (Nat.not_le.1 hn)]
    exact ⟨Nat.zero_le _, nofun⟩

theorem Thrifty.andThen {credit : Nat} (hp : p.Thrifty credit) (hf : ∀ a, (f a).Thrifty 0) :
    (p.andThen f).Thrifty credit := by
  intro c
  obtain ⟨hlength, hok⟩ := hp c
  rw [slices_andThen, run_andThen]
  cases h : p.run c with
  | error err => exact ⟨by simpa using hlength, nofun⟩
  | ok r =>
    obtain ⟨a, c₁⟩ := r
    have hfirst := hok a c₁ h
    obtain ⟨hlater, hok₁⟩ := hf a c₁
    simp only [List.length_append, Except.bind]
    refine ⟨by omega, fun b c' hb => ?_⟩
    have := hok₁ b c' hb
    omega

/-! ### Decoding as a course of reads -/

def u32 : Course UInt32 := read 4 fun bs => done (UInt32.ofNat (ofLittleEndian bs))

def record (previous : Option UInt32) : Course Record :=
  u32.andThen fun typeId => u32.andThen fun size => read size.toNat fun payload =>
    if ascends previous typeId then done ⟨typeId, payload⟩ else refuse typeId

def records : Nat → Option UInt32 → Course (List Record)
  | 0, _ => done []
  | count + 1, previous =>
    (record previous).andThen fun r =>
      (records count (some r.typeId)).andThen fun rs => done (r :: rs)

def snapshot : Course (List Record) := u32.andThen fun count => records count.toNat none

theorem run_u32 (c : Cursor) : u32.run c = c.u32 := by
  simp only [u32, run, Cursor.u32]
  cases c.take 4 <;> rfl

theorem run_records (count : Nat) (previous : Option UInt32) (c : Cursor) :
    (records count previous).run c = readRecords count previous c := by
  induction count generalizing previous c with
  | zero => rfl
  | succ count ih =>
    simp only [records, record, run_andThen, run_u32, readRecords, bind, Except.bind, pure,
      Except.pure, throw, throwThe, MonadExceptOf.throw]
    cases c.u32 with
    | error err => rfl
    | ok typeId =>
      simp only
      cases typeId.2.u32 with
      | error err => rfl
      | ok size =>
        simp only [run]
        cases size.2.take size.1.toNat with
        | error err => rfl
        | ok payload =>
          simp only
          cases ascends previous typeId.1 with
          | false => rfl
          | true =>
            simp only [if_true, run, ih]
            cases readRecords count (some typeId.1) payload.2 <;> rfl

theorem decode_snapshot (bs : Bytes) : snapshot.decode bs = Wire.decode bs := by
  simp only [Wire.decode, decode, snapshot, run_andThen, run_u32, run_records, bind, Except.bind]
  cases Cursor.u32 ⟨bs, 0⟩ with
  | error err => rfl
  | ok count =>
    simp only
    cases readRecords count.1.toNat none count.2 <;> rfl

theorem thrifty_record (previous : Option UInt32) : (record previous).Thrifty 0 := by
  have hpayload (typeId size : UInt32) : Thrifty 6 (read size.toNat fun payload =>
      if ascends previous typeId then done (⟨typeId, payload⟩ : Record) else refuse typeId) := by
    refine thrifty_read (show 5 + 1 ≤ 6 + size.toNat by omega) fun payload => ?_
    split
    · exact thrifty_done _ _
    · exact thrifty_refuse _ _
  exact thrifty_read (show 3 + 1 ≤ 0 + 4 by omega) fun _ =>
    thrifty_read (show 6 + 1 ≤ 3 + 4 by omega) fun _ => hpayload _ _

theorem thrifty_records (count : Nat) (previous : Option UInt32) :
    (records count previous).Thrifty 0 := by
  induction count generalizing previous with
  | zero => exact thrifty_done 0 _
  | succ count ih =>
    exact (thrifty_record previous).andThen fun r => (ih (some r.typeId)).andThen fun _ =>
      thrifty_done 0 _

theorem thrifty_snapshot : snapshot.Thrifty 0 :=
  (thrifty_read (show 3 + 1 ≤ 0 + 4 by omega) fun _ => thrifty_done 3 _).andThen fun count =>
    thrifty_records count.toNat none

end Course

def reads (bs : Bytes) : List Slice := Course.snapshot.slices ⟨bs, 0⟩

/-- A snapshot says where it ends, and one that was cut short where bytes are missing and how many;
decoding reads what is there and makes no more reads than there are bytes, whatever the numbers in
it say. -/
theorem decode_delimits (bs : Bytes) :
    (∀ rs, decode bs = .ok rs →
      (∀ front, front <+: bs → front ≠ bs →
        ∃ place needed, decode front = .error (.malformed place needed)) ∧
      ∀ more, more ≠ [] → decode (bs ++ more) = .error (.trailingBytes more.length)) ∧
    (∀ place needed, decode bs = .error (.malformed place needed) →
      place ≤ bs.length ∧ 1 ≤ needed ∧ ∀ more,
        (∃ n, decode (bs ++ more) = .error (.malformed place n)) ↔ more.length < needed) ∧
    Course.snapshot.decode bs = decode bs ∧ (∀ s ∈ reads bs, s.Within bs) ∧
      (reads bs).length ≤ bs.length := by
  have hcourse := Course.decode_snapshot
  refine ⟨fun rs h => ⟨fun front hfront hne => ?_, fun more hmore => ?_⟩, fun place needed h => ?_,
    hcourse bs, Course.within_of_mem_slices [] rfl, (Course.thrifty_snapshot ⟨bs, 0⟩).1⟩
  · obtain ⟨more, rfl⟩ := hfront
    have hmore : more ≠ [] := fun hnil => hne (by rw [hnil, List.append_nil])
    rw [← hcourse] at h ⊢
    exact Course.decode_of_truncated h hmore
  · rw [← hcourse] at h ⊢
    exact Course.decode_append h hmore
  · rw [← hcourse, Course.decode_eq_malformed_iff] at h
    obtain ⟨-, hplace, hneeded⟩ := Course.place_of_malformed h
    refine ⟨by omega, hneeded, fun more => ?_⟩
    simp only [← hcourse, Course.decode_eq_malformed_iff]
    exact Course.malformed_append_iff h more

/-- A record of four bytes: whole, with two bytes more, without its last two bytes, and with one or
both of these again. -/
theorem decode_delimits_quartet :
    let bs : Bytes := [1, 0, 0, 0, 7, 0, 0, 0, 4, 0, 0, 0, 1, 2, 3, 4]
    decode bs = .ok [⟨7, [1, 2, 3, 4]⟩] ∧
      decode (bs ++ [0, 0]) = .error (.trailingBytes 2) ∧
      decode (bs.take 14) = .error (.malformed 12 2) ∧
      (∃ n, decode (bs.take 14 ++ [3]) = .error (.malformed 12 n)) ∧
      ¬ ∃ n, decode (bs.take 14 ++ [3, 4]) = .error (.malformed 12 n) := by
  intro bs
  have hwhole : decode bs = .ok [⟨7, [1, 2, 3, 4]⟩] := rfl
  have hcut : decode (bs.take 14) = .error (.malformed 12 2) := rfl
  obtain ⟨-, -, hmend⟩ := (decode_delimits (bs.take 14)).2.1 12 2 hcut
  exact ⟨hwhole, ((decode_delimits bs).1 _ hwhole).2 [0, 0] (by decide), hcut,
    (hmend [3]).2 (by decide), fun hex => absurd ((hmend [3, 4]).1 hex) (by decide)⟩

end EntityWorld.Wire
