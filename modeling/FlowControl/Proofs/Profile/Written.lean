import FlowControl.Profile.Data
import FlowControl.Proofs.Document.Data

/-!
# Reading what was written

A profile is written as a table in which every setting has its field, and a section that is present
is a table once more. This module is about the way back. Whatever order a document gives the fields,
reading it finds the profile that was written, and reading is strict about all the tables: none may
have a field that its record does not declare, and a section may not miss a field that it requires.

Every section is dealt with in the same two steps. First its reader is stated as an equivalence: it
reads a table as a section just if the table has no strange names and every field of the section can
be read from it. From this both halves follow, for the table that was written and for every table
that is like it but spoilt. The receive buffer is the exception that makes it interesting. Which
fields it has depends on the kind of its strategy, which is itself one of the fields; so the spoilt
table has to be shown to be of the same kind still, if it is of any (`Record.Breaks.field?`).

A profile is then put together from its sections: where the table of a section is not read, the
profile is not (`Profile.ReadFrom`).
-/

set_option autoImplicit false

namespace FlowControl

open Document Profile

/-! ## The tables of a profile -/

def MarkSection.record : Record := .ofRequired ["low", "high"]

namespace SizingSection

def kind : SizingSection → String
  | .adaptive .. => "adaptive"
  | .fixed _ => "fixed"

/-- The kind of a strategy decides which fields there are. -/
def record : SizingSection → Record
  | .adaptive .. => .ofRequired ["strategy", "minimum", "initial", "maximum"]
  | .fixed _ => .ofRequired ["strategy", "capacity"]

end SizingSection

def EstimatorSection.record : Record := .ofRequired ["unknown_size"]

def SocketSection.record : Record :=
  .ofOptional ["tcp_no_delay", "keep_alive", "reuse_address", "receive_buffer_size",
    "send_buffer_size", "so_linger"]

namespace Profile

def record : Record :=
  .ofOptional ["connect_timeout_millis", "max_messages_per_read", "write_spin_count", "auto_read",
    "write_buffer", "recv_buffer", "message_size_estimator", "socket"]

/-- The tables of a profile, with the paths where they stand: its own, and those of the sections
that are present. -/
def records (p : Profile) : List (List String × Record) :=
  [([], record)] ++ (p.marks.map fun _ => (["write_buffer"], MarkSection.record)).toList
    ++ (p.sizing.map fun s => (["recv_buffer"], s.record)).toList
    ++ (p.estimator.map fun _ => (["message_size_estimator"], EstimatorSection.record)).toList
    ++ (p.socket.map fun _ => (["socket"], SocketSection.record)).toList

/-! ## Fields -/

theorem u32?_u32Data (n : UInt32) : (u32Data n).u32? = some n := by
  have hbounds : 0 ≤ (n.toNat : Int) ∧ (n.toNat : Int) ≤ 4294967295 := by
    have hlt := n.toNat_lt
    omega
  simp [u32Data, Data.u32?, Data.between?, hbounds]

theorem i32?_i32Data (n : Int32) : (i32Data n).i32? = some n := by
  have hbounds : -2147483648 ≤ n.toInt ∧ n.toInt ≤ 2147483647 := by
    have hlow := n.le_toInt
    have hhigh := n.toInt_lt
    omega
  simp [i32Data, Data.i32?, Data.between?, hbounds]

theorem u64?_toNat (n : UInt64) : (Data.int n.toNat).u64? = some n := by
  have hbounds : 0 ≤ (n.toNat : Int) ∧ (n.toNat : Int) ≤ 18446744073709551615 := by
    have hlt := n.toNat_lt
    omega
  simp [Data.u64?, Data.between?, hbounds]

section Listed

variable {α : Type} {l : Listing} {name : String} {read : Data → Option α}
  {written : List (String × Data)}

theorem requiredField?_listed {d : Data} {a : α} (hnames : (written.map (·.1)).Nodup)
    (hfound : Data.field? name written = some d) (hread : read (d.listedBy l) = some a) :
    requiredField? read name (l.list (Data.fieldsListedBy l written)) = some a := by
  rw [requiredField?, Data.field?_listed l hnames, hfound]
  exact hread

theorem optionalField?_of_ne_null {fields : List (String × Data)} {d : Data}
    (hfound : Data.field? name fields = some d) (hd : d ≠ .null) :
    optionalField? read name fields = (read d).map some := by
  rw [optionalField?, hfound]
  cases d with
  | null => exact absurd rfl hd
  | bool | int | real | moment | text | list | table => rfl

/-- Null stands for what is absent, so it must not be readable as something present. -/
theorem optionalField?_listed {write : α → Data} {a? : Option α}
    (hnames : (written.map (·.1)).Nodup)
    (hfound : Data.field? name written = some (optionalData write a?)) (hnull : read .null = none)
    (hread : ∀ a, read ((write a).listedBy l) = some a) :
    optionalField? read name (l.list (Data.fieldsListedBy l written)) = some a? := by
  have hlisted := Data.field?_listed l hnames name
  rw [hfound, Option.map_some] at hlisted
  cases a? with
  | none =>
    rw [optionalField?, hlisted]
    rfl
  | some a =>
    have hne : (write a).listedBy l ≠ .null := by
      intro heq
      have ha := hread a
      rw [heq, hnull] at ha
      cases ha
    rw [optionalField?_of_ne_null hlisted hne]
    exact congrArg (Option.map some) (hread a)

theorem mem_names_of_requiredField? {fields : List (String × Data)} {a : α}
    (h : requiredField? read name fields = some a) : name ∈ fields.map (·.1) := by
  obtain ⟨d, hd, -⟩ := Option.bind_eq_some_iff.1 h
  exact List.mem_map_of_mem (Data.mem_of_field? hd)

end Listed

/-- What is read from a field of a spoilt table was there before. -/
theorem requiredField?_of_breaks {α : Type} {read : Data → Option α} {r : Record}
    {fields fields' : List (String × Data)} {name : String} {a : α}
    (hb : r.Breaks fields fields') (hnames : (fields.map (·.1)).Nodup) (hname : name ∈ r.declared)
    (h : requiredField? read name fields' = some a) : requiredField? read name fields = some a := by
  obtain ⟨d, hfound, hread⟩ := Option.bind_eq_some_iff.1 h
  rw [requiredField?, hb.field? hnames hname hfound]
  exact hread

end Profile

/-! ## The water marks -/

namespace MarkSection

variable {surplus : Data.Surplus} {fields : List (String × Data)}

theorem ofData?_table_eq_some_iff {m : MarkSection} :
    ofData? surplus (.table fields) = some m
      ↔ (∀ f ∈ fields, f.1 ∈ record.declared)
        ∧ requiredField? Data.u32? "low" fields = some m.low
        ∧ requiredField? Data.u32? "high" fields = some m.high := by
  simp only [ofData?, Option.bind_eq_bind, Option.bind_eq_some_iff, Data.fields?_table_eq_some_iff]
  constructor
  · rintro ⟨_, ⟨hnames, rfl⟩, _, hlow, _, hhigh, heq⟩
    cases heq
    exact ⟨hnames, hlow, hhigh⟩
  · rintro ⟨hnames, hlow, hhigh⟩
    exact ⟨_, ⟨hnames, rfl⟩, _, hlow, _, hhigh, rfl⟩

theorem declared_nodup : record.declared.Nodup := by decide

theorem ofData?_toData (l : Listing) (m : MarkSection) :
    ofData? surplus (m.toData.listedBy l) = some m := by
  refine ofData?_table_eq_some_iff.2 ⟨fun _ => Data.mem_names_of_listed, ?low, ?high⟩
  case low => exact requiredField?_listed declared_nodup rfl (u32?_u32Data m.low)
  case high => exact requiredField?_listed declared_nodup rfl (u32?_u32Data m.high)

theorem fits_of_ofData? {m : MarkSection} (h : ofData? surplus (.table fields) = some m) :
    record.Fits fields := by
  obtain ⟨hnames, hlow, hhigh⟩ := ofData?_table_eq_some_iff.1 h
  refine ⟨hnames, ?_⟩
  simp only [record, Record.ofRequired, List.forall_mem_cons]
  exact ⟨mem_names_of_requiredField? hlow, mem_names_of_requiredField? hhigh, List.forall_mem_nil _⟩

theorem strict_toData (l : Listing) (m : MarkSection) :
    record.Strict (ofData? surplus) [] (m.toData.listedBy l) :=
  Record.strict_table (Data.names_listed l _) fun _ _ _ => fits_of_ofData?

end MarkSection

/-! ## The receive buffer -/

namespace SizingSection

variable {fields : List (String × Data)}

/-- The fields that a strategy of its kind has. -/
def ReadFrom (fields : List (String × Data)) : SizingSection → Prop
  | .adaptive minimum initial maximum =>
    requiredField? Data.u32? "minimum" fields = some minimum
      ∧ requiredField? Data.u32? "initial" fields = some initial
      ∧ requiredField? Data.u32? "maximum" fields = some maximum
  | .fixed capacity => requiredField? Data.u32? "capacity" fields = some capacity

theorem requiredField?_rest {α : Type} (read : Data → Option α) {name : String}
    (hname : name ≠ "strategy") : requiredField? read name (fields.filter fun f => f.1 ≠ "strategy")
      = requiredField? read name fields := by
  rw [requiredField?, Data.field?_filter hname]
  rfl

theorem fields?_rest {names : List String} {rest : List (String × Data)} :
    (Data.table (fields.filter fun f => f.1 ≠ "strategy")).fields? .refused names = some rest
      ↔ (∀ f ∈ fields, f.1 ∈ "strategy" :: names)
        ∧ fields.filter (fun f => f.1 ≠ "strategy") = rest := by
  rw [Data.fields?_table_eq_some_iff]
  refine and_congr_left fun _ => forall_congr' fun f => ?_
  simp only [List.mem_filter, List.mem_cons, decide_eq_true_eq]
  tauto

theorem readFrom_of_ofData? {s : SizingSection} (h : ofData? (.table fields) = some s) :
    requiredField? Data.text? "strategy" fields = some s.kind
      ∧ (∀ f ∈ fields, f.1 ∈ s.record.declared) ∧ s.ReadFrom fields := by
  simp only [ofData?, kind?, Option.bind_eq_bind, Option.bind_eq_some_iff,
    Option.map_eq_some_iff] at h
  obtain ⟨_, ⟨kind, hkind, rfl⟩, h⟩ := h
  dsimp only at h
  split_ifs at h with hadaptive hfixed
  · subst hadaptive
    simp only [Option.bind_eq_some_iff, fields?_rest] at h
    obtain ⟨_, ⟨hnames, rfl⟩, minimum, hminimum, initial, hinitial, maximum, hmaximum, heq⟩ := h
    rw [requiredField?_rest _ (by decide)] at hminimum hinitial hmaximum
    cases heq
    exact ⟨hkind, hnames, hminimum, hinitial, hmaximum⟩
  · subst hfixed
    simp only [Option.bind_eq_some_iff, fields?_rest] at h
    obtain ⟨_, ⟨hnames, rfl⟩, capacity, hcapacity, heq⟩ := h
    rw [requiredField?_rest _ (by decide)] at hcapacity
    cases heq
    exact ⟨hkind, hnames, hcapacity⟩

theorem ofData?_of_readFrom {s : SizingSection}
    (hkind : requiredField? Data.text? "strategy" fields = some s.kind)
    (hnames : ∀ f ∈ fields, f.1 ∈ s.record.declared) (hread : s.ReadFrom fields) :
    ofData? (.table fields) = some s := by
  have hrest : kind? (.table fields)
      = some (s.kind, .table (fields.filter fun f => f.1 ≠ "strategy")) := by
    rw [kind?, hkind, Option.map_some]
  cases s with
  | adaptive minimum initial maximum =>
    obtain ⟨hminimum, hinitial, hmaximum⟩ := hread
    rw [← requiredField?_rest _ (by decide)] at hminimum hinitial hmaximum
    simp only [ofData?, hrest, kind, Option.bind_eq_bind, Option.bind_some, if_true,
      Option.bind_eq_some_iff, fields?_rest]
    exact ⟨_, ⟨hnames, rfl⟩, _, hminimum, _, hinitial, _, hmaximum, rfl⟩
  | fixed capacity =>
    have hcapacity : requiredField? Data.u32? "capacity" fields = some capacity := hread
    rw [← requiredField?_rest _ (by decide)] at hcapacity
    have hother : ¬ "fixed" = "adaptive" := by decide
    simp only [ofData?, hrest, kind, Option.bind_eq_bind, Option.bind_some, hother, if_false,
      if_true, Option.bind_eq_some_iff, fields?_rest]
    exact ⟨_, ⟨hnames, rfl⟩, _, hcapacity, rfl⟩

theorem ofData?_table_eq_some_iff {s : SizingSection} :
    ofData? (.table fields) = some s
      ↔ requiredField? Data.text? "strategy" fields = some s.kind
        ∧ (∀ f ∈ fields, f.1 ∈ s.record.declared) ∧ s.ReadFrom fields :=
  ⟨readFrom_of_ofData?, fun h => ofData?_of_readFrom h.1 h.2.1 h.2.2⟩

theorem declared_nodup (s : SizingSection) : s.record.declared.Nodup := by
  cases s with
  | adaptive => exact (by decide : ["strategy", "minimum", "initial", "maximum"].Nodup)
  | fixed => exact (by decide : ["strategy", "capacity"].Nodup)

theorem ofData?_toData (l : Listing) (s : SizingSection) :
    ofData? (s.toData.listedBy l) = some s := by
  cases s with
  | adaptive minimum initial maximum =>
    have hnames := (adaptive minimum initial maximum).declared_nodup
    refine ofData?_table_eq_some_iff.2
      ⟨?kind, fun _ => Data.mem_names_of_listed, ?minimum, ?initial, ?maximum⟩
    case kind => exact requiredField?_listed hnames rfl rfl
    case minimum => exact requiredField?_listed hnames rfl (u32?_u32Data minimum)
    case initial => exact requiredField?_listed hnames rfl (u32?_u32Data initial)
    case maximum => exact requiredField?_listed hnames rfl (u32?_u32Data maximum)
  | fixed capacity =>
    have hnames := (fixed capacity).declared_nodup
    refine ofData?_table_eq_some_iff.2 ⟨?kind, fun _ => Data.mem_names_of_listed, ?capacity⟩
    case kind => exact requiredField?_listed hnames rfl rfl
    case capacity => exact requiredField?_listed hnames rfl (u32?_u32Data capacity)

theorem toData_eq_table (s : SizingSection) :
    ∃ written, s.toData = .table written ∧ written.map (·.1) = s.record.declared := by
  cases s with
  | adaptive | fixed => exact ⟨_, rfl, rfl⟩

theorem strategy_mem_declared (s : SizingSection) : "strategy" ∈ s.record.declared := by
  cases s with
  | adaptive | fixed => exact List.mem_cons_self

theorem record_eq_of_kind {s s' : SizingSection} (h : s'.kind = s.kind) : s'.record = s.record := by
  cases s with
  | adaptive =>
    cases s' with
    | adaptive => rfl
    | fixed => exact absurd h (by decide : "fixed" ≠ "adaptive")
  | fixed =>
    cases s' with
    | adaptive => exact absurd h (by decide : "adaptive" ≠ "fixed")
    | fixed => rfl

theorem fits_of_ofData? {s : SizingSection} (h : ofData? (.table fields) = some s) :
    s.record.Fits fields := by
  obtain ⟨hkind, hnames, hread⟩ := ofData?_table_eq_some_iff.1 h
  refine ⟨hnames, ?_⟩
  cases s with
  | adaptive minimum initial maximum =>
    obtain ⟨hminimum, hinitial, hmaximum⟩ := hread
    simp only [record, Record.ofRequired, List.forall_mem_cons]
    exact ⟨mem_names_of_requiredField? hkind, mem_names_of_requiredField? hminimum,
      mem_names_of_requiredField? hinitial, mem_names_of_requiredField? hmaximum,
      List.forall_mem_nil _⟩
  | fixed capacity =>
    have hcapacity : requiredField? Data.u32? "capacity" fields = some capacity := hread
    simp only [record, Record.ofRequired, List.forall_mem_cons]
    exact ⟨mem_names_of_requiredField? hkind, mem_names_of_requiredField? hcapacity,
      List.forall_mem_nil _⟩

/-- If a spoilt table is read at all, then as a strategy of the kind that was written, and the
record of this kind it does not fit. -/
theorem strict_toData (l : Listing) (s : SizingSection) :
    s.record.Strict ofData? [] (s.toData.listedBy l) := by
  obtain ⟨written, hwritten, hdeclared⟩ := s.toData_eq_table
  have hread := ofData?_toData l s
  rw [hwritten] at hread ⊢
  have hnames := Data.names_listed l written
  rw [hdeclared] at hnames
  refine Record.strict_table hnames ?_
  intro fields' s' hb hread'
  -- What the spoilt table calls its kind stood in the written one already.
  have hkind := (ofData?_table_eq_some_iff.1 hread).1
  have hkind' := (ofData?_table_eq_some_iff.1 hread').1
  have hbefore := requiredField?_of_breaks hb (hnames.nodup_iff.2 s.declared_nodup)
    s.strategy_mem_declared hkind'
  have hsame : s'.kind = s.kind := Option.some.inj (hbefore.symm.trans hkind)
  rw [← record_eq_of_kind hsame]
  exact fits_of_ofData? hread'

end SizingSection

/-! ## The size estimator -/

namespace EstimatorSection

variable {surplus : Data.Surplus} {fields : List (String × Data)}

theorem ofData?_table_eq_some_iff {e : EstimatorSection} :
    ofData? surplus (.table fields) = some e
      ↔ (∀ f ∈ fields, f.1 ∈ record.declared)
        ∧ requiredField? Data.u64? "unknown_size" fields = some e.unknownSize := by
  simp only [ofData?, Option.bind_eq_bind, Option.bind_eq_some_iff, Data.fields?_table_eq_some_iff]
  constructor
  · rintro ⟨_, ⟨hnames, rfl⟩, _, hsize, heq⟩
    cases heq
    exact ⟨hnames, hsize⟩
  · rintro ⟨hnames, hsize⟩
    exact ⟨_, ⟨hnames, rfl⟩, _, hsize, rfl⟩

theorem declared_nodup : record.declared.Nodup := by decide

theorem ofData?_toData (l : Listing) (e : EstimatorSection) :
    ofData? surplus (e.toData.listedBy l) = some e := by
  refine ofData?_table_eq_some_iff.2 ⟨fun _ => Data.mem_names_of_listed, ?_⟩
  exact requiredField?_listed declared_nodup rfl (u64?_toNat e.unknownSize)

theorem fits_of_ofData? {e : EstimatorSection} (h : ofData? surplus (.table fields) = some e) :
    record.Fits fields := by
  obtain ⟨hnames, hsize⟩ := ofData?_table_eq_some_iff.1 h
  refine ⟨hnames, ?_⟩
  simp only [record, Record.ofRequired, List.forall_mem_cons]
  exact ⟨mem_names_of_requiredField? hsize, List.forall_mem_nil _⟩

theorem strict_toData (l : Listing) (e : EstimatorSection) :
    record.Strict (ofData? surplus) [] (e.toData.listedBy l) :=
  Record.strict_table (Data.names_listed l _) fun _ _ _ => fits_of_ofData?

end EstimatorSection

/-! ## The socket options -/

namespace SocketSection

variable {surplus : Data.Surplus} {fields : List (String × Data)}

theorem ofData?_table_eq_some_iff {s : SocketSection} :
    ofData? surplus (.table fields) = some s
      ↔ (∀ f ∈ fields, f.1 ∈ record.declared)
        ∧ optionalField? Data.bool? "tcp_no_delay" fields = some s.tcpNoDelay
        ∧ optionalField? Data.bool? "keep_alive" fields = some s.keepAlive
        ∧ optionalField? Data.bool? "reuse_address" fields = some s.reuseAddress
        ∧ optionalField? Data.i32? "receive_buffer_size" fields = some s.receiveBufferSize
        ∧ optionalField? Data.i32? "send_buffer_size" fields = some s.sendBufferSize
        ∧ optionalField? Data.i32? "so_linger" fields = some s.linger := by
  simp only [ofData?, Option.bind_eq_bind, Option.bind_eq_some_iff, Data.fields?_table_eq_some_iff]
  constructor
  · rintro ⟨_, ⟨hnames, rfl⟩, _, hdelay, _, halive, _, hreuse, _, hreceive, _, hsend, _, hlinger,
      heq⟩
    cases heq
    exact ⟨hnames, hdelay, halive, hreuse, hreceive, hsend, hlinger⟩
  · rintro ⟨hnames, hdelay, halive, hreuse, hreceive, hsend, hlinger⟩
    exact ⟨_, ⟨hnames, rfl⟩, _, hdelay, _, halive, _, hreuse, _, hreceive, _, hsend, _, hlinger,
      rfl⟩

theorem declared_nodup : record.declared.Nodup := by decide

theorem ofData?_toData (l : Listing) (s : SocketSection) :
    ofData? surplus (s.toData.listedBy l) = some s := by
  refine ofData?_table_eq_some_iff.2
    ⟨fun _ => Data.mem_names_of_listed, ?delay, ?alive, ?reuse, ?receive, ?send, ?linger⟩
  case delay => exact optionalField?_listed declared_nodup rfl rfl fun _ => rfl
  case alive => exact optionalField?_listed declared_nodup rfl rfl fun _ => rfl
  case reuse => exact optionalField?_listed declared_nodup rfl rfl fun _ => rfl
  case receive => exact optionalField?_listed declared_nodup rfl rfl i32?_i32Data
  case send => exact optionalField?_listed declared_nodup rfl rfl i32?_i32Data
  case linger => exact optionalField?_listed declared_nodup rfl rfl i32?_i32Data

theorem fits_of_ofData? {s : SocketSection} (h : ofData? surplus (.table fields) = some s) :
    record.Fits fields :=
  ⟨(ofData?_table_eq_some_iff.1 h).1, List.forall_mem_nil _⟩

theorem strict_toData (l : Listing) (s : SocketSection) :
    record.Strict (ofData? surplus) [] (s.toData.listedBy l) :=
  Record.strict_table (Data.names_listed l _) fun _ _ _ => fits_of_ofData?

end SocketSection

/-! ## The whole profile -/

namespace Profile

variable {surplus : Data.Surplus} {fields : List (String × Data)}

/-- Every setting of the profile can be read from the fields of a table, and there are no others. -/
structure ReadFrom (surplus : Data.Surplus) (fields : List (String × Data)) (p : Profile) :
    Prop where
  names : ∀ f ∈ fields, f.1 ∈ record.declared
  connectTimeout : optionalField? Data.i32? "connect_timeout_millis" fields = some p.connectTimeout
  maxMessages : optionalField? Data.i32? "max_messages_per_read" fields = some p.maxMessages
  writeSpinCount : optionalField? Data.i32? "write_spin_count" fields = some p.writeSpinCount
  autoRead : optionalField? Data.bool? "auto_read" fields = some p.autoRead
  marks : optionalField? (MarkSection.ofData? surplus) "write_buffer" fields = some p.marks
  sizing : optionalField? SizingSection.ofData? "recv_buffer" fields = some p.sizing
  estimator : optionalField? (EstimatorSection.ofData? surplus) "message_size_estimator" fields
    = some p.estimator
  socket : optionalField? (SocketSection.ofData? surplus) "socket" fields = some p.socket

theorem ofData?_table_eq_some_iff {p : Profile} :
    ofData? surplus (.table fields) = some p ↔ p.ReadFrom surplus fields := by
  simp only [ofData?, Option.bind_eq_bind, Option.bind_eq_some_iff, Data.fields?_table_eq_some_iff]
  constructor
  · rintro ⟨_, ⟨hnames, rfl⟩, _, htimeout, _, hmessages, _, hspin, _, hread, _, hmarks, _, hsizing,
      _, hestimator, _, hsocket, heq⟩
    cases heq
    exact ⟨hnames, htimeout, hmessages, hspin, hread, hmarks, hsizing, hestimator, hsocket⟩
  · intro h
    exact ⟨_, ⟨h.names, rfl⟩, _, h.connectTimeout, _, h.maxMessages, _, h.writeSpinCount, _,
      h.autoRead, _, h.marks, _, h.sizing, _, h.estimator, _, h.socket, rfl⟩

theorem declared_nodup : record.declared.Nodup := by decide

theorem ofData?_toData (l : Listing) (p : Profile) :
    ofData? surplus (p.toData.listedBy l) = some p := by
  refine ofData?_table_eq_some_iff.2 ?_
  constructor
  case names => exact fun _ => Data.mem_names_of_listed
  case connectTimeout => exact optionalField?_listed declared_nodup rfl rfl i32?_i32Data
  case maxMessages => exact optionalField?_listed declared_nodup rfl rfl i32?_i32Data
  case writeSpinCount => exact optionalField?_listed declared_nodup rfl rfl i32?_i32Data
  case autoRead => exact optionalField?_listed declared_nodup rfl rfl fun _ => rfl
  case marks => exact optionalField?_listed declared_nodup rfl rfl (MarkSection.ofData?_toData l)
  case sizing => exact optionalField?_listed declared_nodup rfl rfl (SizingSection.ofData?_toData l)
  case estimator =>
    exact optionalField?_listed declared_nodup rfl rfl (EstimatorSection.ofData?_toData l)
  case socket => exact optionalField?_listed declared_nodup rfl rfl (SocketSection.ofData?_toData l)

theorem strict_toData (l : Listing) (p : Profile) :
    record.Strict (ofData? surplus) [] (p.toData.listedBy l) := by
  refine Record.strict_table (Data.names_listed l _) fun _ _ _ h => ?_
  exact ⟨(ofData?_table_eq_some_iff.1 h).names, List.forall_mem_nil _⟩

/-- A reader that is strict about a section makes the profile's reader strict about it, since a
profile is not read without its sections. -/
theorem strict_section {α : Type} {write : α → Data} {read : Data → Option α} {r : Record}
    {name : String} {l : Listing} {written : List (String × Data)} {a? : Option α} {a : α}
    (hneeds : ∀ {fields p}, ReadFrom surplus fields p →
      ∃ a?, optionalField? read name fields = some a?)
    (hnames : (written.map (·.1)).Nodup)
    (hfound : Data.field? name written = some (optionalData write a?)) (hpresent : a? = some a)
    (hstrict : r.Strict read [] ((write a).listedBy l)) :
    r.Strict (ofData? surplus) [name] ((Data.table written).listedBy l) := by
  have hlisted := Data.field?_listed l hnames name
  rw [hfound, hpresent, Option.map_some] at hlisted
  refine hstrict.field hlisted ?_
  intro all new hnew hnone
  cases hread : ofData? surplus (.table all) with
  | none => rfl
  | some p =>
    obtain ⟨a?, ha⟩ := hneeds (ofData?_table_eq_some_iff.1 hread)
    rw [optionalField?_of_ne_null hnew nofun, hnone] at ha
    cases ha

/-- Written data are read as the profile that was written, whatever order a document gives the
fields. With a field that is not declared, in the table of the profile or in that of a section which
is present, or without a field that the section requires, they are not read. -/
theorem ofData?_written (surplus : Data.Surplus) (l : Listing) (p : Profile) :
    let d := p.toData.listedBy l
    ofData? surplus d = some p
      ∧ ∀ e ∈ p.records, ∃ fields, d.tableAt? e.1 = some fields
        ∧ (fields.map (·.1)).Perm e.2.declared
        ∧ ∀ fields', e.2.Breaks fields fields' →
            ofData? surplus (d.setTable fields' e.1) = none := by
  intro d
  refine ⟨ofData?_toData l p, ?_⟩
  intro e he
  simp only [records, List.mem_append, Option.mem_toList, Option.map_eq_some_iff,
    List.mem_singleton] at he
  rcases he with (((rfl | ⟨m, hm, rfl⟩) | ⟨s, hs, rfl⟩) | ⟨e, he, rfl⟩) | ⟨s, hs, rfl⟩
  · exact strict_toData l p
  · exact strict_section (fun h => ⟨_, h.marks⟩) declared_nodup rfl hm
      (MarkSection.strict_toData l m)
  · exact strict_section (fun h => ⟨_, h.sizing⟩) declared_nodup rfl hs
      (SizingSection.strict_toData l s)
  · exact strict_section (fun h => ⟨_, h.estimator⟩) declared_nodup rfl he
      (EstimatorSection.strict_toData l e)
  · exact strict_section (fun h => ⟨_, h.socket⟩) declared_nodup rfl hs
      (SocketSection.strict_toData l s)

/-- The fields of another kind of strategy are not welcome. -/
example :
    let fields := [("strategy", .text "fixed"), ("capacity", .int 8), ("minimum", .int 1)]
    Profile.ofData? .refused (.table [("recv_buffer", .table fields)]) = none := by decide

end Profile

end FlowControl
