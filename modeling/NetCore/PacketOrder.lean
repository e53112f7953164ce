import NetCore.SendConservation
import Mathlib.Data.Fintype.Basic

/-! Order of the packets of one session from `Send` to `WSASend`. `Flush` takes
`_reserved` under one lock and `_send` appends to `_sendQueue` under another. As long
as no second list is taken between the two locks, what has been handed to `_send`,
the list on its way there and `_reserved` are, one after the other, the packets in
the order in which `Send` appended them. -/
namespace NetCore.PacketOrder
open TransitionRuns PacketFraming SegmentedReceive SendPipeline SendConservation

variable {Thread : Type}

/-- The packets passed to `WSASend`, in the order of the calls and of their segments. -/
def submittedPackets (system : System Thread) : List Queued :=
  system.calls.flatMap Submission.segments

def KeepsOrder (system : System Thread) : Prop :=
  ∀ (first second : Nat) (earlier later : Queued), system.received[first]? = some earlier →
    system.received[second]? = some later → first < second →
    ∀ position : Nat, (submittedPackets system)[position]? = some later →
      ∃ before : Nat, before < position ∧ (submittedPackets system)[before]? = some earlier

def carried (system : System Thread) (thread : Thread) : List Queued :=
  (role (system.phase thread)).buffers

/-- Only `Send` and `Flush` are called, the session stays connected and `WSASend` does
not fail. -/
structure PacketRun (before : System Thread) (label : Label Thread) (after : System Thread) :
    Prop where
  online : Online before label after
  packets : ∀ thread buffers, label ≠ .sendList thread buffers

/-- A `Flush` that takes packets out of `_reserved` finds no other list on its way. -/
structure Orderly (before : System Thread) (label : Label Thread) (after : System Thread) :
    Prop where
  run : PacketRun before label after
  settled : ∀ thread tick result, label = .advance thread tick result →
    before.phase thread = .flushLock → before.reserved ≠ [] → ∀ other, carried before other = []

def packetRun : Condition (System Thread) (Label Thread) := PacketRun

def orderly : Condition (System Thread) (Label Thread) := Orderly

structure Arranged (system : System Thread) (list : List Queued) : Prop where
  order : system.handed.flatten ++ list ++ system.reserved = system.received
  known : ∀ thread, carried system thread = [] ∨ carried system thread = list
  sole : ∀ first second, carried system first ≠ [] → carried system second ≠ [] → first = second
  someone : list ≠ [] → ∃ thread, carried system thread = list

theorem start_arranged (tick : UInt64) :
    Arranged (System.connectedStart tick : System Thread) [] where
  order := rfl
  known _ := Or.inl rfl
  sole _ _ busy := absurd rfl busy
  someone busy := absurd rfl busy

theorem arranged_frame (before after : System Thread) (list : List Queued)
    (holds : Arranged before list) (reserved : after.reserved = before.reserved)
    (received : after.received = before.received) (handed : after.handed = before.handed)
    (lists : ∀ thread, carried after thread = carried before thread) : Arranged after list where
  order := by rw [handed, reserved, received, holds.order]
  known thread := by rw [lists]; exact holds.known thread
  sole first second left right := by
    rw [lists] at left right
    exact holds.sole first second left right
  someone busy := by
    obtain ⟨thread, same⟩ := holds.someone busy
    exact ⟨thread, by rw [lists, same]⟩

variable [DecidableEq Thread]

theorem carried_enter (before after : System Thread) (thread other : Thread) (phase : Phase)
    (phases : after.phase = Function.update before.phase thread phase) :
    carried after other = if other = thread then (role phase).buffers
        else carried before other := by
  unfold carried
  by_cases mine : other = thread
  · simp [phases, mine]
  · simp [phases, mine]

theorem arranged_aside (before after : System Thread) (list : List Queued)
    (holds : Arranged before list) (thread : Thread) (phase : Phase)
    (phases : after.phase = Function.update before.phase thread phase)
    (was : carried before thread = []) (stays : (role phase).buffers = [])
    (reserved : after.reserved = before.reserved) (received : after.received = before.received)
    (handed : after.handed = before.handed) : Arranged after list := by
  apply arranged_frame before after list holds reserved received handed
  intro other
  rw [carried_enter before after thread other phase phases]
  split
  case isTrue mine => rw [mine, was, stays]
  case isFalse => rfl

theorem arranged_flush (system : System Thread) (list : List Queued) (holds : Arranged system list)
    (thread : Thread) (tick : UInt64) (nobody : ∀ other, carried system other = []) :
    Arranged { enter system thread (.sendEntry system.reserved) with
      reserved := []
      lastSendTick := tick
      reservedSendBytes := 0 } system.reserved := by
  have empty : list = [] := by
    by_contra busy
    obtain ⟨other, same⟩ := holds.someone busy
    exact busy (same ▸ nobody other)
  have order := holds.order
  rw [empty, List.append_nil] at order
  have lists : ∀ other, carried { enter system thread (.sendEntry system.reserved) with
      reserved := [], lastSendTick := tick, reservedSendBytes := 0 } other =
      if other = thread then system.reserved else [] := by
    intro other
    rw [carried_enter system _ thread other _ rfl, nobody other]
    rfl
  constructor
  case order => simpa [enter] using order
  case known =>
    intro other
    rw [lists]
    split
    case isTrue => exact Or.inr rfl
    case isFalse => exact Or.inl rfl
  case sole =>
    intro first second left right
    rw [lists] at left right
    simp only [ne_eq, ite_eq_right_iff, Classical.not_imp] at left right
    exact left.1.trans right.1.symm
  case someone => exact fun _ => ⟨thread, by rw [lists, if_pos rfl]⟩

theorem arranged_lock (system : System Thread) (list : List Queued) (holds : Arranged system list)
    (thread : Thread) (first : Queued) (rest : List Queued)
    (stands : system.phase thread = .sendEntry (first :: rest)) :
    Arranged (sendLocked system thread (first :: rest)) [] := by
  have mine : carried system thread = first :: rest := by
    rw [carried, stands]
    rfl
  have same : list = first :: rest := by
    rcases holds.known thread with none | known
    · rw [mine] at none
      cases none
    · exact known.symm.trans mine
  have lists : ∀ other, carried (sendLocked system thread (first :: rest)) other = [] := by
    intro other
    rw [carried_enter system _ thread other _ rfl]
    split
    case isTrue => split <;> rfl
    case isFalse different =>
      by_contra busy
      exact different (holds.sole other thread busy (by rw [mine]; simp))
  constructor
  case order =>
    have order := holds.order
    rw [same] at order
    simpa [sendLocked, enter] using order
  case known => exact fun other => Or.inl (lists other)
  case sole => exact fun other _ busy => absurd (lists other) busy
  case someone => exact fun busy => absurd rfl busy

theorem step_arranged (before after : System Thread) (label : Label Thread) (list : List Queued)
    (holds : Arranged before list) (guarded : Guarded before) (move : Move before label after)
    (allowed : Orderly before label after) : ∃ next, Arranged after next := by
  cases move with
  | inert _ _ quiet _ =>
      exact ⟨list, arranged_frame before after list holds quiet.reserved quiet.received quiet.handed
        fun thread => by rw [carried, carried, quiet.roles]⟩
  | accept thread size position _ =>
      refine ⟨list, ?_, holds.known, holds.sole, holds.someone⟩
      simp only [accept]
      rw [← List.append_assoc, holds.order]
  | call thread buffers _ => exact absurd rfl (allowed.run.packets thread buffers)
  | flush thread tick result stands =>
      have was : carried before thread = [] := by
        rw [carried, stands]
        rfl
      by_cases nothing : before.reserved = []
      · refine ⟨list, arranged_aside before _ list holds thread _ rfl was ?_ ?_ rfl rfl⟩
        · exact nothing
        · exact nothing.symm
      · exact ⟨before.reserved, arranged_flush before list holds thread tick
          (allowed.settled thread tick result rfl stands nothing)⟩
  | lock thread _ _ first rest stands =>
      exact ⟨[], arranged_lock before list holds thread first rest stands⟩
  | abandon thread _ _ _ stands => exact absurd stands (guarded.unrefused thread)
  | drain thread _ _ stands =>
      exact ⟨list, arranged_aside before _ list holds thread _ rfl
        (by rw [carried, stands]; rfl) rfl rfl rfl rfl⟩
  | submit thread _ result stands =>
      exact ⟨list, arranged_aside before _ list holds thread _ rfl
        (by rw [carried, stands]; rfl) rfl rfl rfl rfl⟩
  | clear thread _ _ stands =>
      exact ⟨list, arranged_aside before _ list holds thread _ rfl
        (by rw [carried, stands]; rfl) rfl rfl rfl rfl⟩
  | store thread _ _ stands =>
      exact ⟨list, arranged_aside before _ list holds thread _ rfl
        (by rw [carried, stands]; rfl) rfl rfl rfl rfl⟩
  | teardown _ off => exact (online_connected before after _ allowed.run.online off).elim

def Ticketed (system : System Thread) : Prop :=
  ∀ (position : Nat) (entry : Queued), system.received[position]? = some entry →
    entry.ticket = position

theorem step_ticketed (before after : System Thread) (label : Label Thread)
    (holds : Ticketed before) (guarded : Guarded before) (move : Move before label after)
    (allowed : PacketRun before label after) :
    Ticketed after := by
  cases move with
  | inert _ _ quiet _ =>
      intro position entry found
      rw [quiet.received] at found
      exact holds position entry found
  | accept thread size place _ =>
      intro position entry found
      simp only [accept] at found
      rcases Nat.lt_trichotomy position before.received.length with old | new | beyond
      · rw [List.getElem?_append_left old] at found
        exact holds position entry found
      · subst new
        rw [List.getElem?_concat_length, Option.some.injEq] at found
        rw [← found]
      · rw [List.getElem?_eq_none (by simp; omega)] at found
        cases found
  | call thread buffers _ => exact absurd rfl (allowed.packets thread buffers)
  | abandon thread _ _ _ stands => exact absurd stands (guarded.unrefused thread)
  | teardown _ off => exact (online_connected before after _ allowed.online off).elim
  | flush _ _ _ _ => exact holds
  | lock _ _ _ _ _ _ => exact holds
  | drain _ _ _ _ => exact holds
  | submit _ _ _ _ => exact holds
  | clear _ _ _ _ => exact holds
  | store _ _ _ _ => exact holds

structure Ordered (system : System Thread) : Prop where
  conserved : Invariant system
  arranged : ∃ list, Arranged system list
  ticketed : Ticketed system

omit [DecidableEq Thread] in
theorem ordered_submitted (system : System Thread) (holds : Ordered system) :
    submittedPackets system <+: system.received := by
  obtain ⟨list, arranged⟩ := holds.arranged
  refine ⟨unsubmitted system ++ system.sendQueue ++ list ++ system.reserved, ?_⟩
  rw [← arranged.order, ← holds.conserved.inOrder, submittedPackets]
  simp only [List.append_assoc]

omit [DecidableEq Thread] in
theorem ordered_keeps (system : System Thread) (holds : Ordered system) : KeepsOrder system := by
  intro first second earlier later atFirst atSecond order position found
  have inside := ordered_submitted system holds
  have received : system.received[position]? = some later := by
    obtain ⟨tail, whole⟩ := inside
    rw [← whole, List.getElem?_append_left (List.getElem?_eq_some_iff.mp found).1, found]
  have same : position = second := by
    rw [← holds.ticketed position later received, ← holds.ticketed second later atSecond]
  subst position
  refine ⟨first, order, ?_⟩
  obtain ⟨tail, whole⟩ := inside
  have length := (List.getElem?_eq_some_iff.mp found).1
  rw [← whole, List.getElem?_append_left (Nat.lt_trans order length)] at atFirst
  exact atFirst

/-- In every run in which a `Flush` takes packets only while no other list is between
the two locks, packets are submitted in the order in which `Send` appended them. -/
theorem packets_submitted_in_order (tick : UInt64) (system : System Thread)
    (reached : Reachable step orderly (System.connectedStart tick) system) : KeepsOrder system := by
  apply ordered_keeps
  apply reachable_invariant step orderly Ordered (System.connectedStart tick)
  case holds =>
    refine ⟨start_invariant tick, ⟨[], start_arranged tick⟩, ?_⟩
    intro position entry found
    simp [System.connectedStart, System.start] at found
  case keeps =>
    intro before label after holds taken allowed
    have move := step_move before after label taken
    obtain ⟨list, arranged⟩ := holds.arranged
    constructor
    case conserved =>
      exact step_invariant before after label holds.conserved move allowed.run.online
    case arranged =>
      exact step_arranged before after label list arranged holds.conserved.guarded move allowed
    case ticketed =>
      exact step_ticketed before after label holds.ticketed holds.conserved.guarded move allowed.run
  case reached => exact reached

/-! Executable forms of the two conditions, for runs given by their labels. -/
section Replay
variable [Fintype Thread]

def onlyPackets : Label Thread → Bool
  | .sendList _ _ => false
  | _ => true

def packetStep (before : System Thread) (label : Label Thread) (after : System Thread) : Bool :=
  onlineStep before label after && onlyPackets label

def takesAlone (before : System Thread) : Label Thread → Bool
  | .advance thread _ _ => decide (before.phase thread = .flushLock → before.reserved ≠ [] →
      ∀ other, carried before other = [])
  | _ => true

def orderlyStep (before : System Thread) (label : Label Thread) (after : System Thread) : Bool :=
  packetStep before label after && takesAlone before label

omit [DecidableEq Thread] [Fintype Thread] in
theorem packet_step_sound (before : System Thread) (label : Label Thread) (after : System Thread)
    (checked : packetStep before label after = true) : packetRun before label after := by
  rw [packetStep, Bool.and_eq_true] at checked
  constructor
  case online => exact online_step_sound before label after checked.1
  case packets =>
    rintro thread buffers rfl
    simp [onlyPackets] at checked

omit [DecidableEq Thread] in
theorem orderly_step_sound (before : System Thread) (label : Label Thread) (after : System Thread)
    (checked : orderlyStep before label after = true) : orderly before label after := by
  rw [orderlyStep, Bool.and_eq_true] at checked
  constructor
  case run => exact packet_step_sound before label after checked.1
  case settled =>
    rintro thread tick result rfl
    exact of_decide_eq_true checked.2

end Replay

/-- Two threads send and flush one after the other; the second packet is on its way. -/
theorem second_flush_in_order : ∃ system : System Bool,
    Reachable step orderly (System.connectedStart 0) system ∧
    submittedPackets system = [⟨0, ⟨14, 0⟩⟩, ⟨1, ⟨24, 100⟩⟩] ∧ KeepsOrder system := by
  obtain ⟨system, reached, seen⟩ := replay_reachable step orderly orderlyStep orderly_step_sound
    (fun system : System Bool => submittedPackets system)
    [⟨0, ⟨14, 0⟩⟩, ⟨1, ⟨24, 100⟩⟩] halfwayLabels
    (System.connectedStart 0) (by decide)
  exact ⟨system, reached, seen, packets_submitted_in_order 0 system reached⟩

/-- The first thread has taken its packet out of `_reserved` and stops before the lock of
`_send`; the second one sends, flushes and submits. -/
def overtakingLabels : List (Label Bool) :=
  [.send true 10 0, .flush true 2000, .advance true 2000 .done,
   .send false 20 100, .flush false 4000, .advance false 4000 .done, .advance false 0 .done,
   .advance false 0 .done, .advance false 0 .done, .advance false 0 .done]

/-- A flushing thread is overtaken between the two locks: the packet appended second is
submitted while the first one is still on its way. -/
theorem flush_overtaken : ∃ system : System Bool,
    Reachable step packetRun (System.connectedStart 0) system ∧
    system.received = [⟨0, ⟨14, 0⟩⟩, ⟨1, ⟨24, 100⟩⟩] ∧
    submittedPackets system = [⟨1, ⟨24, 100⟩⟩] ∧ ¬ KeepsOrder system := by
  obtain ⟨system, reached, seen⟩ := replay_reachable step packetRun packetStep packet_step_sound
    (fun system : System Bool => (system.received, submittedPackets system))
    ([⟨0, ⟨14, 0⟩⟩, ⟨1, ⟨24, 100⟩⟩], [⟨1, ⟨24, 100⟩⟩]) overtakingLabels
      (System.connectedStart 0) (by decide)
  rw [Prod.mk.injEq] at seen
  refine ⟨system, reached, seen.1, seen.2, ?_⟩
  intro keeps
  obtain ⟨before, early, _⟩ := keeps 0 1 ⟨0, ⟨14, 0⟩⟩ ⟨1, ⟨24, 100⟩⟩ (by rw [seen.1]; rfl)
    (by rw [seen.1]; rfl) (by decide) 0 (by rw [seen.2]; rfl)
  exact Nat.not_lt_zero before early

end NetCore.PacketOrder
