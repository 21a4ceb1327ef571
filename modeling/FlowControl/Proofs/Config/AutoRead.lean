import FlowControl.Proofs.Config.Busy

/-!
# What listeners of the auto-read switch are left with

When the switch is turned, it is stored first and then told to every listener. A listener that turns
it back at once begins a round of its own, which tells everybody before the outer round goes on. So
the listeners behind it hear the outer value last, although the switch no longer has it.

What a listener *finds* when it is called is another matter. Whatever the clients do, the switch is
left as each listener found it at its last call (`UpToDate`): whoever turns it again tells everybody
again. So a listener is right at the end exactly if its last call told it what it found. For the
listener that was registered first this is so at every call, since nobody acts between the store and
its turn (`First`). For the others it is so while clients only listen (`Passive`).
-/

set_option autoImplicit false

namespace FlowControl

/-- A call of a listener of the switch: the value it was told, and the one that the switch had. -/
structure Hearing where
  told : Bool
  found : Bool
deriving DecidableEq, Repr

namespace Busy

variable {κ : Type} {t : OptionTable} {allowed : Call t → Prop} {run : Runner κ t allowed}
  {s : Busy κ t allowed} {i : Nat} {before : Bool} {o : Occasion}

def hearing? (i : Nat) (m : Moment κ) : Option Hearing :=
  match m.occasion with
  | .autoRead l told => if l = i then some ⟨told, m.config.core.autoRead⟩ else none
  | _ => none

/-- The calls of listener `i`, in their order. -/
def heard (i : Nat) (s : Busy κ t allowed) : List Hearing := s.moments.filterMap (hearing? i)

/-- What listener `i` found at its last call. If it has not been called, this is the value that the
switch had before. -/
def lastFound (before : Bool) (i : Nat) (s : Busy κ t allowed) : Bool :=
  ((heard i s).getLast?.map (·.found)).getD before

theorem heard_mark_self (told : Bool) :
    heard i (s.mark (.autoRead i told)) = heard i s ++ [⟨told, s.config.core.autoRead⟩] := by
  simp [heard, mark, hearing?]

theorem heard_mark_other (ho : ∀ told, o ≠ .autoRead i told) :
    heard i (s.mark o) = heard i s := by
  have hnone : hearing? i (⟨o, s.config, s.ledger⟩ : Moment κ) = none := by
    cases o with
    | autoRead l told =>
      have hl : l ≠ i := by
        rintro rfl
        exact ho told rfl
      simp [hearing?, hl]
    | _ => rfl
  simp [heard, mark, hnone]

/-- Whoever is told of the switch is told what it finds, if the call carries what the switch has. -/
theorem told_eq_found_mark (h : ∀ call ∈ heard i s, call.told = call.found)
    (ho : ∀ told, o = .autoRead i told → told = s.config.core.autoRead) :
    ∀ call ∈ heard i (s.mark o), call.told = call.found := by
  by_cases hself : ∃ told, o = .autoRead i told
  · obtain ⟨told, rfl⟩ := hself
    intro call hcall
    rw [heard_mark_self] at hcall
    rcases List.mem_append.1 hcall with hcall | hcall
    · exact h call hcall
    · rw [List.mem_singleton.1 hcall]
      exact ho told rfl
  · rw [heard_mark_other fun told htold => hself ⟨told, htold⟩]
    exact h

/-! ## The last call -/

def Registered (i : Nat) (s : Busy κ t allowed) : Prop := i ∈ s.config.core.autoReadListeners

/-- The switch is as listener `i` found it at its last call. -/
structure UpToDate (before : Bool) (i : Nat) (s : Busy κ t allowed) : Prop where
  registered : Registered i s
  lastFound : s.lastFound before i = s.config.core.autoRead

/-- A call brings a listener up to date, whatever it is told. -/
theorem Registered.told (h : Registered i s) (told : Bool) :
    UpToDate before i (s.mark (.autoRead i told)) := by
  refine ⟨h, ?_⟩
  rw [Busy.lastFound, heard_mark_self]
  simp [mark]

theorem UpToDate.mark (h : UpToDate before i s) (o : Occasion) :
    UpToDate before i (s.mark o) := by
  by_cases ho : ∃ told, o = .autoRead i told
  · obtain ⟨told, rfl⟩ := ho
    exact h.registered.told told
  · refine ⟨h.registered, ?_⟩
    rw [Busy.lastFound, heard_mark_other fun told htold => ho ⟨told, htold⟩]
    exact h.lastFound

/-- Steps keep listeners registered, and keep them up to date. -/
structure Informs (before : Bool) (i : Nat) (run : Runner κ t allowed) : Prop where
  registered : ∀ step s, Registered i s → Registered i (run step s)
  upToDate : ∀ step s, UpToDate before i s → UpToDate before i (run step s)

namespace Informs

variable (h : Informs before i run)

include h

theorem act_registered (o : Occasion) (hs : Registered i s) : Registered i (act run o s) :=
  act_keeps (fun _ _ hs => hs) h.registered hs

theorem act_upToDate (hs : UpToDate before i (s.mark o)) :
    UpToDate before i (act run o s) :=
  act_keeps (fun _ _ hs => ⟨hs.registered, hs.lastFound⟩)
    (fun step s hs => (h.upToDate step s hs).mark .returned) hs

/-- A round brings each of its listeners up to date: nothing is known before its turn, and after it
there are only calls that keep it so. -/
theorem round (on : Bool) {ls : List Nat} (hi : i ∈ ls) (hs : Registered i s) :
    UpToDate before i (ls.foldl (fun s l => act run (.autoRead l on) s) s) := by
  induction ls generalizing s with
  | nil => cases hi
  | cons l rest ih =>
    by_cases hl : l = i
    · subst hl
      exact List.foldlRecOn rest _ (h.act_upToDate (hs.told on))
        fun s hs l' _ => h.act_upToDate (hs.mark _)
    · have hrest : i ∈ rest := (List.mem_cons.1 hi).resolve_left (Ne.symm hl)
      exact ih hrest (h.act_registered _ hs)

theorem registered_gateBlind : GateBlind run (Registered i) where
  config c s hs _ hlisteners := by
    show i ∈ c.core.autoReadListeners
    rw [hlisteners]
    exact hs
  earlier _ _ hs := hs
  ledger _ _ hs := hs
  writability _ _ _ hs := h.act_registered _ hs
  asked _ _ _ hs := h.act_registered _ hs
  reading _ hs := h.act_registered _ hs
  setAutoRead on _ hs :=
    Host.setAutoRead_keeps (h := host run) (P := Registered i) (fun _ _ hs => hs)
      (fun _ _ hs => hs) (fun _ _ _ hs => h.act_registered _ hs) on hs
  addAutoReadListener _ _ _ hs := List.mem_append_left _ hs

theorem upToDate_gateBlind : GateBlind run (UpToDate before i) where
  config c s hs hauto hlisteners :=
    ⟨h.registered_gateBlind.config c s hs.registered hauto hlisteners,
      hs.lastFound.trans hauto.symm⟩
  earlier _ _ hs := ⟨hs.registered, hs.lastFound⟩
  ledger _ _ hs := ⟨hs.registered, hs.lastFound⟩
  writability _ _ _ hs := h.act_upToDate (hs.mark _)
  asked _ _ _ hs := h.act_upToDate (hs.mark _)
  reading _ hs := h.act_upToDate (hs.mark _)
  setAutoRead on s hs := by
    unfold Host.setAutoRead
    split
    · exact hs
    · exact h.round on hs.registered hs.registered
  addAutoReadListener _ _ _ hs := ⟨List.mem_append_left _ hs.registered, hs.lastFound⟩

end Informs

/-! ## The first listener -/

/-- Listener `i` comes before all others and is registered once, and its calls have told it what it
found. -/
structure First (i : Nat) (s : Busy κ t allowed) : Prop where
  head : ∃ rest, s.config.core.autoReadListeners = i :: rest ∧ i ∉ rest
  calls : ∀ call ∈ heard i s, call.told = call.found

theorem First.mark (h : First i s)
    (ho : ∀ told, o = .autoRead i told → told = s.config.core.autoRead) : First i (s.mark o) :=
  ⟨h.head, told_eq_found_mark h.calls ho⟩

section First

variable (hrun : ∀ step s, First i s → First i (run step s))

include hrun

theorem First.act (h : First i s)
    (ho : ∀ told, o = .autoRead i told → told = s.config.core.autoRead) : First i (act run o s) :=
  act_keeps (fun _ _ hs => ⟨hs.head, hs.calls⟩) (fun step s hs => (hrun step s hs).mark nofun)
    (h.mark ho)

/-- The first listener is told before anybody can act, the others after it. -/
theorem First.round (on : Bool) (h : First i s) (hon : s.config.core.autoRead = on) :
    First i
      (s.config.core.autoReadListeners.foldl (fun s l => Busy.act run (.autoRead l on) s) s) := by
  obtain ⟨rest, hrest, hi⟩ := h.head
  rw [hrest, List.foldl_cons]
  have hfirst : First i (Busy.act run (.autoRead i on) s) := by
    refine h.act hrun ?_
    rintro told ⟨rfl⟩
    exact hon.symm
  refine List.foldlRecOn rest _ hfirst ?_
  intro s hs l hl
  refine hs.act hrun ?_
  rintro told ⟨rfl⟩
  exact absurd hl hi

theorem First.gateBlind (hregister : ¬ allowed (.addAutoReadListener i)) :
    GateBlind run (First i) where
  config _ _ hs _ hlisteners := by
    obtain ⟨rest, hrest, hi⟩ := hs.head
    exact ⟨⟨rest, hlisteners.trans hrest, hi⟩, hs.calls⟩
  earlier _ _ hs := ⟨hs.head, hs.calls⟩
  ledger _ _ hs := ⟨hs.head, hs.calls⟩
  writability _ _ _ hs := hs.act hrun nofun
  asked _ _ _ hs := hs.act hrun nofun
  reading _ hs := hs.act hrun nofun
  setAutoRead on s hs := by
    unfold Host.setAutoRead
    split
    · exact hs
    · exact First.round hrun on ⟨hs.head, hs.calls⟩ rfl
  addAutoReadListener l s hl hs := by
    obtain ⟨rest, hrest, hi⟩ := hs.head
    have hne : i ≠ l := by
      rintro rfl
      exact hregister hl
    refine ⟨⟨rest ++ [l], ?_, ?_⟩, hs.calls⟩
    · show s.config.core.autoReadListeners ++ [l] = i :: (rest ++ [l])
      rw [hrest, List.cons_append]
    · simp [hi, hne]

end First

/-! ## Clients that only listen -/

/-- Nobody takes a step when called from now on, and the calls of listener `i` have told it what it
found. -/
structure Passive (i : Nat) (s : Busy κ t allowed) : Prop where
  agenda : ∀ turn ∈ s.agenda, turn.steps = []
  calls : ∀ call ∈ heard i s, call.told = call.found

theorem Passive.mark (h : Passive i s)
    (ho : ∀ told, o = .autoRead i told → told = s.config.core.autoRead) : Passive i (s.mark o) :=
  ⟨h.agenda, told_eq_found_mark h.calls ho⟩

/-- A client that only listens is told, and nothing else happens. -/
theorem Passive.act_eq (h : Passive i s) (run : Runner κ t allowed) (o : Occasion) :
    ∃ rest, (∀ turn ∈ rest, turn.steps = []) ∧ act run o s = { s.mark o with agenda := rest } := by
  unfold Busy.act
  split
  · exact ⟨s.agenda, h.agenda, rfl⟩
  · rename_i turn rest hagenda
    have hturns := h.agenda
    rw [hagenda] at hturns
    refine ⟨rest, fun turn' hturn => hturns turn' (List.mem_cons_of_mem _ hturn), ?_⟩
    rw [hturns turn List.mem_cons_self]
    rfl

theorem Passive.config_act (h : Passive i s) : (act run o s).config = s.config := by
  obtain ⟨rest, -, hact⟩ := h.act_eq run o
  rw [hact]
  rfl

theorem Passive.act (h : Passive i s)
    (ho : ∀ told, o = .autoRead i told → told = s.config.core.autoRead) :
    Passive i (act run o s) := by
  obtain ⟨rest, hrest, hact⟩ := h.act_eq run o
  rw [hact]
  exact ⟨hrest, told_eq_found_mark h.calls ho⟩

/-- In a round of clients that only listen the switch is what everybody is told. -/
theorem Passive.round (on : Bool) (ls : List Nat) (h : Passive i s)
    (hon : s.config.core.autoRead = on) :
    Passive i (ls.foldl (fun s l => Busy.act run (.autoRead l on) s) s) := by
  induction ls generalizing s with
  | nil => exact h
  | cons l rest ih =>
    refine ih (h.act ?_) (by rw [h.config_act, hon])
    rintro told ⟨rfl⟩
    exact hon.symm

theorem Passive.gateBlind : GateBlind run (Passive i) where
  config _ _ hs _ _ := ⟨hs.agenda, hs.calls⟩
  earlier _ _ hs := ⟨hs.agenda, hs.calls⟩
  ledger _ _ hs := ⟨hs.agenda, hs.calls⟩
  writability _ _ _ hs := hs.act nofun
  asked _ _ _ hs := hs.act nofun
  reading _ hs := hs.act nofun
  setAutoRead on s hs := by
    unfold Host.setAutoRead
    split
    · exact hs
    · exact Passive.round on _ ⟨hs.agenda, hs.calls⟩ rfl
  addAutoReadListener _ _ _ hs := ⟨hs.agenda, hs.calls⟩

/-! ## Runs -/

section Runs

variable [OptionLayer κ]

theorem perform_informs (depth : Nat) :
    Informs before i (perform depth : Runner κ t allowed) := by
  induction depth with
  | zero => exact ⟨fun _ _ hs => hs, fun _ _ hs => hs.mark .unfinished⟩
  | succ depth ih =>
    exact ⟨fun step _ hs => ih.registered_gateBlind.exec step hs,
      fun step _ hs => ih.upToDate_gateBlind.exec step hs⟩

theorem perform_first (hregister : ¬ allowed (.addAutoReadListener i)) (depth : Nat)
    (step : ClientStep t allowed) (s : Busy κ t allowed) (hs : First i s) :
    First i (perform depth step s) := by
  induction depth generalizing step s with
  | zero => exact hs.mark nofun
  | succ depth ih => exact (First.gateBlind ih hregister).exec step hs

theorem perform_passive (depth : Nat) (step : ClientStep t allowed) (s : Busy κ t allowed)
    (hs : Passive i s) : Passive i (perform depth step s) := by
  cases depth with
  | zero => exact hs.mark nofun
  | succ depth => exact Passive.gateBlind.exec step hs

/-- Whatever clients do, from outside and from inside callbacks: the switch is in the end as each
listener that was registered before found it at its last call, and it is unchanged if the listener
was not called. So the last value that the listener was told is the value of the switch exactly if
it was so when it was told. The listener that was registered first is always told what it finds, and
so is everybody if nobody acts when called. -/
theorem runAll_heard {c : Config κ} {i : Nat} (hi : i ∈ c.core.autoReadListeners)
    (agenda : List (Turn t allowed)) (steps : List (ClientStep t allowed)) :
    let s := runAll steps (start c agenda)
    (heard i s = [] → s.config.core.autoRead = c.core.autoRead) ∧
    (∀ last, (heard i s).getLast? = some last → last.found = s.config.core.autoRead) ∧
    (∀ rest, c.core.autoReadListeners = i :: rest → i ∉ rest →
      ¬ allowed (.addAutoReadListener i) → ∀ call ∈ heard i s, call.told = call.found) ∧
    ((∀ turn ∈ agenda, turn.steps = []) → ∀ call ∈ heard i s, call.told = call.found) := by
  intro s
  have hend : UpToDate c.core.autoRead i s :=
    runAll_keeps
      (fun depth step s hs => ((perform_informs depth).upToDate step s hs).mark .returned)
      steps ⟨hi, rfl⟩
  have hfound := hend.lastFound
  rw [lastFound] at hfound
  refine ⟨?_, ?_, ?_, ?_⟩
  · intro hnone
    rw [hnone] at hfound
    exact hfound.symm
  · intro last hlast
    rw [hlast] at hfound
    exact hfound
  · intro rest hrest hnot hregister
    have hfirst : First i s :=
      runAll_keeps (fun depth step s hs => (perform_first hregister depth step s hs).mark nofun)
        steps ⟨⟨rest, hrest, hnot⟩, nofun⟩
    exact hfirst.calls
  · intro hagenda
    have hpassive : Passive i s :=
      runAll_keeps (fun depth step s hs => (perform_passive depth step s hs).mark nofun) steps
        ⟨hagenda, nofun⟩
    exact hpassive.calls

end Runs

/-! ## Two listeners -/

/-- A call that turns the auto-read switch. -/
def TurnsSwitch {t : OptionTable} : Call t → Prop
  | .set .autoRead _ => True
  | .setOption k _ => k.key = CoreOption.autoRead.key
  | _ => False

def turnSwitch (on : Bool) : ClientStep t TurnsSwitch := .call (.set .autoRead (.bool on)) trivial

/-- A channel with two listeners of the switch. -/
def listenedTwice : Config Empty :=
  { Config.standard with core := { Core.standard with autoReadListeners := [0, 1] } }

/-- The first of two listeners turns the switch on again when it is told that it is off, and is told
of that in its turn: it ends with what the switch is. If it only listens, the second listener ends
with what the switch is, too. -/
theorem runAll_heard_first :
    let agenda : List (Turn (.serve []) TurnsSwitch) := [⟨none, [turnSwitch true]⟩]
    let s := runAll [turnSwitch false] (start listenedTwice agenda)
    let passive : List (Turn (.serve []) TurnsSwitch) := [⟨none, []⟩]
    let s' := runAll [turnSwitch false] (start listenedTwice passive)
    0 ∈ listenedTwice.core.autoReadListeners ∧ (heard 0 s).length = 2 ∧
      (∀ call ∈ heard 0 s, call.told = call.found) ∧
      (heard 0 s).getLast? = some ⟨true, true⟩ ∧ true = s.config.core.autoRead ∧
      heard 1 s' = [⟨false, false⟩] ∧ (∀ call ∈ heard 1 s', call.told = call.found) ∧
      false = s'.config.core.autoRead := by
  intro agenda s passive s'
  have hi : 0 ∈ listenedTwice.core.autoReadListeners := by decide
  have hlast : (heard 0 s).getLast? = some ⟨true, true⟩ := by decide
  obtain ⟨-, hfound, hfirst, -⟩ := runAll_heard hi agenda [turnSwitch false]
  have hi' : 1 ∈ listenedTwice.core.autoReadListeners := by decide
  have hheard : heard 1 s' = [⟨false, false⟩] := by decide
  have hquiet : ∀ turn ∈ passive, turn.steps = [] := by
    intro turn hturn
    rw [List.mem_singleton.1 hturn]
  obtain ⟨-, hfound', -, hpassive⟩ := runAll_heard hi' passive [turnSwitch false]
  exact ⟨hi, by decide, hfirst [1] rfl (by decide) id, hlast, hfound _ hlast, hheard,
    hpassive hquiet, hfound' ⟨false, false⟩ (by rw [hheard]; rfl)⟩

/-- In the same run the second listener is told that the switch is on before it is told that it is
off, which is the last it hears. -/
theorem second_told_stale :
    let agenda : List (Turn (.serve []) TurnsSwitch) := [⟨none, [turnSwitch true]⟩]
    let s := runAll [turnSwitch false] (start listenedTwice agenda)
    heard 0 s = [⟨false, false⟩, ⟨true, true⟩] ∧ heard 1 s = [⟨true, true⟩, ⟨false, true⟩] ∧
      s.config.core.autoRead = true ∧
      ¬ ∀ last, (heard 1 s).getLast? = some last → last.told = s.config.core.autoRead := by
  intro agenda s
  have hheard : heard 1 s = [⟨true, true⟩, ⟨false, true⟩] := by decide
  have hon : s.config.core.autoRead = true := by decide
  refine ⟨by decide, hheard, hon, ?_⟩
  intro hlast
  have hstale := hlast ⟨false, true⟩ (by rw [hheard]; rfl)
  rw [hon] at hstale
  cases hstale

end Busy

end FlowControl
