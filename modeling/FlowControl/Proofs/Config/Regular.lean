import FlowControl.Proofs.Config.Accepted
import FlowControl.Proofs.Config.Building
import FlowControl.Proofs.Sizing.Capacity

/-!
# What a configuration can be relied on for

Counts are in the range of the options that show them, the marks are in order, socket settings have
passed their checks, and the handle in use was made by the strategy in force. All this is about the
configuration alone (`Config.Promised`). The read limit takes a look at the past: it is the last
value that was accepted for it, by whatever way it came, or 16. The limit is no field of its own but
lives in the handle, and a new strategy comes with a new handle, so that the statement is about what
is taken over as much as about what is stored.

What carries this through all calls is a smaller property (`Config.Regular`), and it is shown here
to hold of what is built and to survive every single store.
-/

set_option autoImplicit false

namespace FlowControl

/-- The read limit when these values have been accepted for it, in this order. -/
def lastAccepted (accepted : List Int32) : Int := (accepted.getLast?.map (·.toInt)).getD 16

theorem lastAccepted_concat (accepted : List Int32) (n : Int32) :
    lastAccepted (accepted ++ [n]) = n.toInt := by
  simp [lastAccepted]

/-! ## The core -/

namespace Core

structure Regular (limit : Int) (c : Core) : Prop where
  connectTimeout : c.connectTimeout ≤ 2147483647
  writeSpinCount : 0 < c.writeSpinCount ∧ c.writeSpinCount ≤ 2147483647
  maxMessages : 0 < c.handle.limit.toNat ∧ c.handle.limit.toNat ≤ 2147483647
  limit : c.handle.limit.toNat = limit
  /-- The handle is what use has made of one that the strategy creates. -/
  handle : ∃ us, c.handle = (RecvHandle.ofStrategy c.strategy).useAll us

variable {c c' : Core} {limit : Int}

theorem Regular.standard : Core.standard.Regular 16 :=
  ⟨by decide, by decide, by decide, rfl, [], rfl⟩

theorem Regular.use (h : c.Regular limit) {u : RecvHandle.Use} (hu : ∀ n, u ≠ .limit n) :
    Regular limit { c with handle := c.handle.use u } := by
  have hlimit : (c.handle.use u).limit = c.handle.limit := by
    cases u with
    | report | reset => rfl
    | limit n => exact absurd rfl (hu n)
  obtain ⟨us, hus⟩ := h.handle
  refine ⟨h.connectTimeout, h.writeSpinCount, hlimit ▸ h.maxMessages, hlimit ▸ h.limit,
    us ++ [u], ?_⟩
  rw [hus]
  simp [RecvHandle.useAll]

/-- Nothing is said about the gate, the auto-read switch and its listeners. -/
theorem Regular.withSignals (h : c.Regular limit) (gate : Gate) (autoRead : Bool)
    (autoReadListeners : List Nat) : Regular limit { c with gate, autoRead, autoReadListeners } :=
  ⟨h.connectTimeout, h.writeSpinCount, h.maxMessages, h.limit, h.handle⟩

theorem Regular.store (h : c.Regular limit) {o : CoreOption} (ho : o ≠ .maxMessages) {v : Value}
    (hstore : c.store o v = .ok c') : c'.Regular limit := by
  obtain ⟨htimeout, hspin, hmax, hlimit, hhandle⟩ := h
  cases stored_of_store hstore with
  | connectTimeout n hn => exact ⟨toNat_toInt_le n, hspin, hmax, hlimit, hhandle⟩
  | maxMessages => exact absurd rfl ho
  | writeSpinCount n hn =>
    have hpos : 0 < n.toInt.toNat := by omega
    exact ⟨htimeout, ⟨hpos, toNat_toInt_le n⟩, hmax, hlimit, hhandle⟩
  | sizing strategy => exact ⟨htimeout, hspin, hmax, hlimit, [.limit c.handle.limit], rfl⟩
  | autoRead | highMark | lowMark | marks | estimator =>
    exact ⟨htimeout, hspin, hmax, hlimit, hhandle⟩

theorem Regular.storeLimit (h : c.Regular limit) {n : Int32}
    (hstore : c.store .maxMessages (.i32 n) = .ok c') : c'.Regular n.toInt := by
  obtain ⟨us, hus⟩ := h.handle
  cases stored_of_store hstore with
  | maxMessages n hn =>
    have hnew : (c.handle.withLimit n.toInt.toNat.toUInt32).limit.toNat = n.toInt.toNat :=
      toNat_limit n
    have hle := toNat_toInt_le n
    refine ⟨h.connectTimeout, h.writeSpinCount, ?_, ?_, us ++ [.limit n.toInt.toNat.toUInt32], ?_⟩
    · dsimp only
      omega
    · dsimp only
      omega
    · rw [hus]
      simp [RecvHandle.useAll, RecvHandle.use]

end Core

/-! ## Configurations -/

namespace Config

variable {κ : Type} {c : Config κ} {limit : Int}

structure Regular (limit : Int) (c : Config κ) : Prop where
  core : c.core.Regular limit
  sockets : ∀ options, .socket options ∈ c.layers → options.Sound

theorem Regular.setLayer (h : c.Regular limit) {i : Nat} {l : Layer κ}
    (hl : ∀ options, l = .socket options → options.Sound) : (c.setLayer i l).Regular limit where
  core := h.core
  sockets options hmem := by
    rcases List.mem_or_eq_of_mem_set hmem with hmem | heq
    · exact h.sockets options hmem
    · exact hl options heq.symm

theorem Regular.socket (h : c.Regular limit) {i : Nat} {options options' : SocketOptions}
    {o : SocketOption} {v : Value} (hi : c.layers[i]? = some (.socket options))
    (hset : options.set o v = .ok options') : (c.setLayer i (.socket options')).Regular limit := by
  refine h.setLayer ?_
  rintro _ ⟨rfl⟩
  exact (h.sockets options (List.mem_of_getElem? hi)).set hset

variable [OptionLayer κ]

/-- The option shows the count as it is. -/
def Shows (c : Config κ) (k : OptionKey) (count : Nat) : Prop :=
  ∃ n : Int32, c.getOption k = .ok (.i32 n) ∧ n.toInt = count

structure Promised (limit : Int) (c : Config κ) : Prop extends Regular limit c where
  marks : c.core.gate.marks.low ≤ c.core.gate.marks.high
  showsConnectTimeout : c.Shows .connectTimeoutMillis c.core.connectTimeout
  showsWriteSpinCount : c.Shows .writeSpinCount c.core.writeSpinCount
  showsMaxMessages : c.Shows .maxMessagesPerRead c.core.handle.limit.toNat

theorem shows_of_le {o : CoreOption} {count : Nat} (hget : c.core.get o = Core.countValue count)
    (htype : o.key.type = .i32) (hle : count ≤ 2147483647) : c.Shows o.key count := by
  obtain ⟨n, hn, hvalue⟩ := Core.countValue_eq count
  have htry : c.tryGet o.key = some (.i32 n) := by
    rw [tryGet, findSome?_chain, tryGetAt, Core.tryGet, CoreOption.ofKey?_key, Option.map_some,
      hget, hn, Option.some_or]
  refine ⟨n, ?_, ?_⟩
  · rw [getOption, htry]
    exact if_pos htype.symm
  · rw [hvalue, Nat.min_eq_left hle]

theorem Regular.promised (h : c.Regular limit) : c.Promised limit where
  toRegular := h
  marks := c.core.gate.marks.low_le_high
  showsConnectTimeout := shows_of_le (o := .connectTimeout) rfl rfl h.core.connectTimeout
  showsWriteSpinCount := shows_of_le (o := .writeSpinCount) rfl rfl h.core.writeSpinCount.2
  showsMaxMessages := shows_of_le (o := .maxMessages) rfl rfl h.core.maxMessages.2

end Config

/-! ## Building -/

namespace Builder

variable {κ : Type} {b : Builder κ} {c : Core} {limit : Int}

theorem regular_foldl (b : Builder κ) (os : List CoreOption) (hos : .maxMessages ∉ os)
    (h : c.Regular limit) : (os.foldl b.overOption c).Regular limit := by
  refine foldl_keeps (P := (·.Regular limit)) (fun c hc o ho v c' hok => hc.store ?_ hok) h
  rintro rfl
  exact hos ho

/-- The limit of a builder is the first one that is accepted. -/
theorem regular_overLimit (h : c.Regular (lastAccepted [])) (hfault : b.fault .maxMessages = none) :
    (b.overOption c .maxMessages).Regular (lastAccepted b.maxMessages.toList) := by
  have hvalue : b.value? .maxMessages = b.maxMessages.map .i32 := rfl
  have heffect := b.effect c .maxMessages
  rw [hfault, hvalue] at heffect
  generalize b.overOption c .maxMessages = c' at heffect ⊢
  cases hlimit : b.maxMessages with
  | none =>
    rw [hlimit] at heffect
    cases heffect
    exact h
  | some n =>
    rw [hlimit] at heffect
    cases heffect with
    | stored hstore => exact h.storeLimit hstore

/-- A built configuration has the limit of its builder, if that has one. -/
theorem regular_of_build {c : Config κ} (h : b.build = .ok c)
    (hsockets : ∀ options, .socket options ∈ b.layers → options.Sound) :
    c.Regular (lastAccepted b.maxMessages.toList) := by
  obtain ⟨hnone, rfl⟩ := eq_of_build h
  have hfault : b.fault .maxMessages = none :=
    List.findSome?_eq_none_iff.1 hnone .maxMessages (by decide)
  have hbefore := b.regular_foldl [.sizing, .connectTimeout, .writeSpinCount] (by decide) .standard
  have hlimit := regular_overLimit hbefore hfault
  have hafter := b.regular_foldl [.autoRead, .marks, .estimator] (by decide) hlimit
  exact ⟨hafter, hsockets⟩

end Builder

end FlowControl
