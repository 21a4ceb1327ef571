import FlowControl.Proofs.Config.Store
import FlowControl.Proofs.Registry.Declared

/-!
# What a write does to a layer

Each kind of layer stores its options in its own way: the core in fields, in the gate and in the
receive handle, the socket layer in fields of which two may be unset, a registry in a list of
declarations. For each of them this file says the same three things: an unclaimed option has no
value, a stored value is read back, and the other options keep theirs.

The water marks are three options over two numbers, so that a write to one of them may change what
the others read. `OptionKey.IsMark` singles them out, and `Core.Kept` says which of the two numbers
a write leaves alone.
-/

set_option autoImplicit false

namespace FlowControl

namespace OptionKey

/-- The option sets the high mark. -/
def NamesHigh (k : OptionKey) : Prop :=
  k.id = writeBufferHighWaterMark.id ∨ k.id = writeBufferWaterMark.id

/-- The option sets the low mark. -/
def NamesLow (k : OptionKey) : Prop :=
  k.id = writeBufferLowWaterMark.id ∨ k.id = writeBufferWaterMark.id

/-- The option is one of the three that are about the water marks. -/
def IsMark (k : OptionKey) : Prop := k.NamesHigh ∨ k.NamesLow

instance (k : OptionKey) : Decidable k.NamesHigh := inferInstanceAs (Decidable (_ ∨ _))
instance (k : OptionKey) : Decidable k.NamesLow := inferInstanceAs (Decidable (_ ∨ _))
instance (k : OptionKey) : Decidable k.IsMark := inferInstanceAs (Decidable (_ ∨ _))

theorem isMark_congr {k k' : OptionKey} (h : k.id = k'.id) : k.IsMark ↔ k'.IsMark := by
  simp only [IsMark, NamesHigh, NamesLow, h]

end OptionKey

theorem map_eq_ok_iff {ε α β : Type} {f : α → β} {x : Except ε α} {b : β} :
    x.map f = .ok b ↔ ∃ a, x = .ok a ∧ f a = b := by
  cases x <;> simp [Except.map]

/-! ## The gate -/

namespace Gate

@[simp] theorem withMarks_queued (marks : WaterMark) (g : Gate) :
    (g.withMarks marks).queued = g.queued := (settled_frame _).1

@[simp] theorem withMarks_marks (marks : WaterMark) (g : Gate) :
    (g.withMarks marks).marks = marks := (settled_frame _).2

end Gate

/-! ## The core -/

theorem CoreOption.id_of_ofKey? {k : OptionKey} {o : CoreOption} (h : ofKey? k = some o) :
    o.key.id = k.id := by
  simpa [OptionKey.same] using List.find?_some h

namespace Core

/-- Every way in which a core option can be stored. -/
inductive Stored (c : Core) : CoreOption → Value → Core → Prop where
  | connectTimeout (n : Int32) : 0 ≤ n.toInt →
    Stored c .connectTimeout (.i32 n) { c with connectTimeout := n.toInt.toNat }
  | maxMessages (n : Int32) : 0 < n.toInt →
    Stored c .maxMessages (.i32 n) { c with handle := c.handle.withLimit n.toInt.toNat.toUInt32 }
  | writeSpinCount (n : Int32) : 0 < n.toInt →
    Stored c .writeSpinCount (.i32 n) { c with writeSpinCount := n.toInt.toNat }
  | autoRead (b : Bool) : Stored c .autoRead (.bool b) { c with autoRead := b }
  | highMark (marks : WaterMark) : marks.low = c.gate.marks.low →
    Stored c .highMark (.u32 marks.high) (store.remark c marks)
  | lowMark (marks : WaterMark) : marks.high = c.gate.marks.high →
    Stored c .lowMark (.u32 marks.low) (store.remark c marks)
  | marks (marks : WaterMark) : Stored c .marks (.waterMark marks) (store.remark c marks)
  | sizing (strategy : Strategy) : Stored c .sizing (.sizing strategy) (c.withStrategy strategy)
  | estimator (e : Estimator) : Stored c .estimator (.estimator e) (c.withEstimator e)

theorem positive_eq_ok {o : CoreOption} {n : Int32} {m : Nat} (h : positive o n = .ok m) :
    0 < n.toInt ∧ m = n.toInt.toNat := by
  unfold positive at h
  split at h
  · cases h
  · cases h
    exact ⟨by omega, rfl⟩

theorem stored_of_store {c c' : Core} {o : CoreOption} {v : Value} (h : c.store o v = .ok c') :
    Stored c o v c' := by
  cases o with
  | connectTimeout =>
    cases v with
    | i32 n =>
      simp only [store, withConnectTimeout] at h
      split at h
      · cases h
      · cases h
        exact .connectTimeout n (by omega)
    | _ => cases h
  | maxMessages =>
    cases v with
    | i32 n =>
      obtain ⟨m, hm, rfl⟩ := map_eq_ok_iff.1 h
      obtain ⟨hpos, rfl⟩ := positive_eq_ok hm
      exact .maxMessages n hpos
    | _ => cases h
  | writeSpinCount =>
    cases v with
    | i32 n =>
      obtain ⟨m, hm, rfl⟩ := map_eq_ok_iff.1 h
      obtain ⟨hpos, rfl⟩ := positive_eq_ok hm
      exact .writeSpinCount n hpos
    | _ => cases h
  | autoRead =>
    cases v with
    | bool b => cases h; exact .autoRead b
    | _ => cases h
  | highMark =>
    cases v with
    | u32 n =>
      obtain ⟨marks, hm, rfl⟩ := map_eq_ok_iff.1 h
      obtain ⟨hlow, rfl⟩ := WaterMark.ofPair_eq_ok_iff.1 hm
      exact .highMark marks hlow
    | _ => cases h
  | lowMark =>
    cases v with
    | u32 n =>
      obtain ⟨marks, hm, rfl⟩ := map_eq_ok_iff.1 h
      obtain ⟨rfl, hhigh⟩ := WaterMark.ofPair_eq_ok_iff.1 hm
      exact .lowMark marks hhigh
    | _ => cases h
  | marks =>
    cases v with
    | waterMark marks => cases h; exact .marks marks
    | _ => cases h
  | sizing =>
    cases v with
    | sizing strategy => cases h; exact .sizing strategy
    | _ => cases h
  | estimator =>
    cases v with
    | estimator e => cases h; exact .estimator e
    | _ => cases h

/-- What is accepted as a count is within the range of its option. -/
theorem toNat_toInt_le (n : Int32) : n.toInt.toNat ≤ 2147483647 := by
  have := n.toInt_lt
  omega

/-- Counts within the range of an option are shown as they are. -/
theorem countValue_toNat {n : Int32} (h : 0 ≤ n.toInt) : countValue n.toInt.toNat = .i32 n := by
  rw [countValue, Nat.min_eq_left (toNat_toInt_le n), Int32.toNat_toInt,
    Int32.ofNat_toNatClampNeg n (Int32.le_iff_toInt_le.2 h)]

/-- The word of the read limit has room for every count. -/
theorem toNat_limit (n : Int32) : n.toInt.toNat.toUInt32.toNat = n.toInt.toNat := by
  have hsize : n.toInt.toNat < UInt32.size := by
    have := n.toInt_lt
    simp only [UInt32.size]
    omega
  rw [Nat.toUInt32_eq, UInt32.toNat_ofNat_of_lt' hsize]

section Stored

variable {c c' : Core} {o : CoreOption} {v : Value}

theorem Stored.get_self (h : c.Stored o v c') : c'.get o = v := by
  cases h with
  | connectTimeout n hn => exact countValue_toNat hn
  | maxMessages n hn =>
    show countValue n.toInt.toNat.toUInt32.toNat = .i32 n
    rw [toNat_limit]
    exact countValue_toNat (Int.le_of_lt hn)
  | writeSpinCount n hn => exact countValue_toNat (Int.le_of_lt hn)
  | highMark marks _ => simp [get, store.remark]
  | lowMark marks _ => simp [get, store.remark]
  | marks marks => simp [get, store.remark]
  | autoRead | sizing | estimator => rfl

/-- The three options of the water marks aside, no two options share a cell. -/
theorem Stored.get_other (h : c.Stored o v c') {o' : CoreOption} (hne : o' ≠ o)
    (hmark : ¬ (o.key.IsMark ∧ o'.key.IsMark)) : c'.get o' = c.get o' := by
  cases h <;> cases o' <;>
    first
    | rfl
    | exact absurd rfl hne
    | exact absurd (by decide) hmark

end Stored

/-- What a write of the option `k` leaves alone, besides the values of other options. -/
structure Kept (k : OptionKey) (c c' : Core) : Prop where
  high : ¬ k.NamesHigh → c'.gate.marks.high = c.gate.marks.high
  low : ¬ k.NamesLow → c'.gate.marks.low = c.gate.marks.low
  queued : c'.gate.queued = c.gate.queued
  writable : ¬ k.IsMark → c'.gate.writable = c.gate.writable
  /-- The index of the size table and the flag of a pending decrease. -/
  predictor : k.id ≠ OptionKey.recvBufferSizing.id → c'.handle.predictor = c.handle.predictor
  lastRead : k.id ≠ OptionKey.recvBufferSizing.id →
    c'.handle.record.lastBytes = c.handle.record.lastBytes ∧
      c'.handle.record.lastCapacity = c.handle.record.lastCapacity

theorem Kept.refl (k : OptionKey) (c : Core) : Kept k c c :=
  ⟨fun _ => rfl, fun _ => rfl, rfl, fun _ => rfl, fun _ => rfl, fun _ => ⟨rfl, rfl⟩⟩

theorem kept_remark {k : OptionKey} {c : Core} {marks : WaterMark} (hk : k.IsMark)
    (hhigh : ¬ k.NamesHigh → marks.high = c.gate.marks.high)
    (hlow : ¬ k.NamesLow → marks.low = c.gate.marks.low) : Kept k c (store.remark c marks) where
  high hn := by simpa [store.remark] using hhigh hn
  low hn := by simpa [store.remark] using hlow hn
  queued := by simp [store.remark]
  writable hn := absurd hk hn
  predictor _ := rfl
  lastRead _ := ⟨rfl, rfl⟩

theorem Stored.kept {c c' : Core} {o : CoreOption} {v : Value} (h : c.Stored o v c')
    {k : OptionKey} (hk : o.key.id = k.id) : Kept k c c' := by
  cases h with
  | highMark marks hlow =>
    exact kept_remark (.inl (.inl hk.symm)) (absurd (.inl hk.symm)) (fun _ => hlow)
  | lowMark marks hhigh =>
    exact kept_remark (.inr (.inl hk.symm)) (fun _ => hhigh) (absurd (.inl hk.symm))
  | marks marks =>
    exact kept_remark (.inl (.inr hk.symm)) (absurd (.inr hk.symm)) (absurd (.inr hk.symm))
  | sizing strategy =>
    have hsizing : k.id = OptionKey.recvBufferSizing.id := hk.symm
    exact ⟨fun _ => rfl, fun _ => rfl, rfl, fun _ => rfl, absurd hsizing, absurd hsizing⟩
  | connectTimeout | maxMessages | writeSpinCount | autoRead | estimator =>
    exact ⟨fun _ => rfl, fun _ => rfl, rfl, fun _ => rfl, fun _ => rfl, fun _ => ⟨rfl, rfl⟩⟩

end Core

/-! ## The socket layer -/

theorem SocketOption.id_of_ofKey? {k : OptionKey} {o : SocketOption} (h : ofKey? k = some o) :
    o.key.id = k.id := by
  simpa [OptionKey.same] using List.find?_some h

namespace SocketOptions

/-- Every way in which a socket option can be stored. -/
inductive Stored (s : SocketOptions) : SocketOption → Value → SocketOptions → Prop where
  | tcpNoDelay (b : Bool) : Stored s .tcpNoDelay (.bool b) { s with tcpNoDelay := b }
  | keepAlive (b : Bool) : Stored s .keepAlive (.bool b) { s with keepAlive := b }
  | reuseAddress (b : Bool) : Stored s .reuseAddress (.bool b) { s with reuseAddress := b }
  | receiveBufferSize (n : Int32) :
    Stored s .receiveBufferSize (.i32 n) { s with receiveBufferSize := some n }
  | sendBufferSize (n : Int32) :
    Stored s .sendBufferSize (.i32 n) { s with sendBufferSize := some n }
  | linger (n : Int32) : Stored s .linger (.i32 n) { s with linger := n }

theorem checkedSize_eq_ok {o : SocketOption} {n m : Int32} (h : checkedSize o n = .ok m) :
    m = n := by
  unfold checkedSize at h
  split at h <;> cases h
  rfl

theorem stored_of_set {s s' : SocketOptions} {o : SocketOption} {v : Value}
    (h : s.set o v = .ok s') : Stored s o v s' := by
  cases o with
  | tcpNoDelay =>
    cases v with
    | bool b => cases h; exact .tcpNoDelay b
    | _ => cases h
  | keepAlive =>
    cases v with
    | bool b => cases h; exact .keepAlive b
    | _ => cases h
  | reuseAddress =>
    cases v with
    | bool b => cases h; exact .reuseAddress b
    | _ => cases h
  | receiveBufferSize =>
    cases v with
    | i32 n =>
      obtain ⟨m, hm, rfl⟩ := map_eq_ok_iff.1 h
      obtain rfl := checkedSize_eq_ok hm
      exact .receiveBufferSize m
    | _ => cases h
  | sendBufferSize =>
    cases v with
    | i32 n =>
      obtain ⟨m, hm, rfl⟩ := map_eq_ok_iff.1 h
      obtain rfl := checkedSize_eq_ok hm
      exact .sendBufferSize m
    | _ => cases h
  | linger =>
    cases v with
    | i32 n =>
      simp only [set, withLinger] at h
      split at h <;> cases h
      exact .linger n
    | _ => cases h

variable {s s' : SocketOptions} {o : SocketOption} {v : Value}

theorem Stored.get_self (h : Stored s o v s') : s'.get? o = some v := by
  cases h <;> rfl

theorem Stored.get_other (h : Stored s o v s') {o' : SocketOption} (hne : o' ≠ o) :
    s'.get? o' = s.get? o' := by
  cases h <;> cases o' <;>
    first
    | rfl
    | exact absurd rfl hne

/-- An unset size has no value, although the layer claims writes of it. -/
theorem tryGet_of_trySet {k : OptionKey} (h : s.trySet k v = none) : s.tryGet k = none := by
  unfold trySet at h
  rw [Option.map_eq_none_iff] at h
  rw [tryGet, h, Option.bind_none]

theorem tryGet_of_trySet_eq {k : OptionKey} (h : s.trySet k v = some (.ok s')) :
    s'.tryGet k = some v ∧ ∀ k' : OptionKey, k'.id ≠ k.id → s'.tryGet k' = s.tryGet k' := by
  obtain ⟨o, ho, hset⟩ := Option.map_eq_some_iff.1 h
  have hs := stored_of_set hset
  constructor
  · rw [tryGet, ho, Option.bind_some, hs.get_self]
  · intro k' hk'
    unfold tryGet
    cases ho' : SocketOption.ofKey? k' with
    | none => rfl
    | some o' =>
      rw [Option.bind_some, Option.bind_some]
      apply hs.get_other
      rintro rfl
      rw [← SocketOption.id_of_ofKey? ho, ← SocketOption.id_of_ofKey? ho'] at hk'
      exact hk' rfl

end SocketOptions

/-! ## Registries -/

namespace Registry

variable {verdict : Nat → Value → Option String} {k : OptionKey} {v : Value} {r r' : Registry}

theorem value?_of_write (h : r.write verdict k v = none) : r.value? k = none := by
  unfold write at h
  rw [Option.map_eq_none_iff] at h
  rw [value?, h, Option.map_none]

/-- A write that is accepted has the right type and a hook that agrees, and stores its value. -/
theorem eq_store_of_write (h : r.write verdict k v = some (.ok r')) :
    ∃ d, r.find? k = some d ∧ v.type = k.type ∧ d.hook.bind (verdict · v) = none ∧
      r' = r.store k v := by
  obtain ⟨d, hd, hstore⟩ := Option.map_eq_some_iff.1 h
  unfold OptionKey.expectType at hstore
  by_cases htyped : v.type = k.type
  · rw [if_pos htyped] at hstore
    cases hjudge : d.hook.bind (verdict · v) with
    | some reason =>
      rw [hjudge] at hstore
      cases hstore
    | none =>
      rw [hjudge] at hstore
      cases hstore
      exact ⟨d, hd, htyped, hjudge, rfl⟩
  · rw [if_neg htyped] at hstore
    cases hstore

theorem value?_of_write_eq (h : r.write verdict k v = some (.ok r')) :
    r'.value? k = some v ∧ ∀ k' : OptionKey, k'.id ≠ k.id → r'.value? k' = r.value? k' := by
  obtain ⟨d, hd, -, -, rfl⟩ := eq_store_of_write h
  exact ⟨value?_store_self hd, fun k' hne => value?_store_other v r hne⟩

end Registry

/-! ## Layers between the core and the registry -/

namespace Layer

variable {verdict : Nat → Value → Option String} {k : OptionKey} {v : Value} {l l' : Layer Empty}

theorem tryGet_of_store (h : l.store verdict k v = none) : l.tryGet k = none := by
  cases l with
  | socket options => exact SocketOptions.tryGet_of_trySet (Option.map_eq_none_iff.1 h)
  | registry r => exact Registry.value?_of_write (Option.map_eq_none_iff.1 h)
  | custom e => exact e.elim

theorem tryGet_of_store_eq (h : l.store verdict k v = some (.ok l')) :
    l'.tryGet k = some v ∧ ∀ k' : OptionKey, k'.id ≠ k.id → l'.tryGet k' = l.tryGet k' := by
  cases l with
  | socket options =>
    obtain ⟨_, hset, hok⟩ := Option.map_eq_some_iff.1 h
    obtain ⟨options', rfl, rfl⟩ := map_eq_ok_iff.1 hok
    exact SocketOptions.tryGet_of_trySet_eq hset
  | registry r =>
    obtain ⟨_, hset, hok⟩ := Option.map_eq_some_iff.1 h
    obtain ⟨r', rfl, rfl⟩ := map_eq_ok_iff.1 hok
    exact Registry.value?_of_write_eq hset
  | custom e => exact e.elim

end Layer

end FlowControl
