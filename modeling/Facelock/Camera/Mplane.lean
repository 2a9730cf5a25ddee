import Facelock.Lib.Transition

/-!
# Multi-planar streams

`Stream::next_frame` of `crates/facelock-camera/src/mplane.rs`, one driver
operation at a time.  The driver may refuse any of them, and then nothing
changes with it.  It holds the buffers that it took and has not given back.

The first call queues all the buffers and starts the stream.  If that fails
on the way, the driver keeps what it took, but the next call begins with the
first buffer again.  `RestartsAfterQbuf` reads this off the driver's answers,
and nothing else queues a buffer that the driver holds.
-/

namespace Facelock.Mplane

open Transition

structure Stream where
  /-- The lengths of the mapped buffers. -/
  mappings : List Nat
  streaming : Bool
  pending : Option Nat

/-- The operation that `next_frame` is at. -/
inductive Phase where
  | idle
  /-- The loop over all the buffers, or STREAMON at its end. -/
  | starting (index : Nat)
  | requeueing (index : Nat)
  | polling
  | dequeueing

structure System where
  stream : Stream
  phase : Phase
  /-- The buffers that the driver holds. -/
  held : List Nat

/-- A call of `next_frame`, and the answers of the driver. -/
inductive Event where
  | call
  | qbuf (ok : Bool)
  | streamon (ok : Bool)
  /-- An error, or whether a buffer is there before the timeout. -/
  | poll (ready : Option Bool)
  /-- An error, or the index and `bytesused` of a buffer. -/
  | dqbuf (buffer : Option (Nat × Nat))

/-- `next_frame`.  An error ends the call. -/
def step (event : Event) (system : System) : Option System :=
  match system.phase, event with
  | .idle, .call =>
    some { system with
      phase :=
        if !system.stream.streaming then .starting 0
        else match system.stream.pending with
          | some index => .requeueing index
          | none => .polling }
  | .starting index, .qbuf ok =>
    if index < system.stream.mappings.length then
      if ok then some { system with held := index :: system.held, phase := .starting (index + 1) }
      else some { system with phase := .idle }
    else none
  | .starting index, .streamon ok =>
    if index < system.stream.mappings.length then none
    else if ok then some { system with stream.streaming := true, phase := .polling }
    else some { system with phase := .idle }
  | .requeueing index, .qbuf ok =>
    if ok then
      some { system with
        stream.pending := none, held := index :: system.held, phase := .polling }
    else some { system with phase := .idle }
  | .polling, .poll ready =>
    some { system with phase := if ready = some true then .dequeueing else .idle }
  | .dequeueing, .dqbuf none => some { system with phase := .idle }
  | .dequeueing, .dqbuf (some (index, _)) =>
    some { system with
      stream.pending :=
        if index < system.stream.mappings.length then some index else system.stream.pending
      held := system.held.filter (· ≠ index), phase := .idle }
  | _, _ => none

def queued (event : Event) (system : System) : Option Nat :=
  match system.phase, event with
  | .starting index, .qbuf _ =>
    if index < system.stream.mappings.length then some index else none
  | .requeueing index, .qbuf _ => some index
  | _, _ => none

/-- The buffer and the length of the slice that is returned. -/
def slice (event : Event) (system : System) : Option (Nat × Nat) :=
  match system.phase, event with
  | .dequeueing, .dqbuf (some (index, bytesused)) =>
    system.stream.mappings[index]?.map fun length =>
      (index, if bytesused = 0 then length else min bytesused length)
  | _, _ => none

/-- After `with_buffers`. -/
def opened (mappings : List Nat) : System where
  stream := { mappings, streaming := false, pending := none }
  phase := .idle
  held := []

/-- No buffer is queued that the driver holds, and none is handed out. -/
def Sound (event : Event) (system : System) : Prop :=
  (∀ index, queued event system = some index → index ∉ system.held) ∧
    ∀ buffer next, slice event system = some buffer → step event system = some next →
      buffer.1 ∉ next.held

/-- While the stream is started, the driver holds only what this call has
queued. -/
def StartsClean (event : Event) (system : System) : Prop :=
  ∀ index, system.phase = .starting index → queued event system = some index →
    ∀ other ∈ system.held, other < index

/-- The buffers go to the driver in their order, and a buffer that was handed
out is not with the driver. -/
structure Inv (system : System) : Prop where
  pending : ∀ index, system.stream.pending = some index →
    system.stream.streaming = true ∧ index ∉ system.held
  order : system.stream.streaming = false → ∀ other ∈ system.held, ∀ index < other,
    index ∈ system.held
  phase : match system.phase with
    | .idle => True
    | .starting index => system.stream.streaming = false ∧ ∀ other < index, other ∈ system.held
    | .requeueing index => system.stream.pending = some index
    | .polling | .dequeueing => system.stream.streaming = true

variable {event : Event} {system next : System}

theorem Inv.step (h : Inv system) (hstep : step event system = some next) : Inv next := by
  obtain ⟨hpending, horder, hphase⟩ := h
  unfold Mplane.step at hstep
  split at hstep
  case h_1 =>
    cases hstep
    refine ⟨hpending, horder, ?_⟩
    cases hstreaming : system.stream.streaming
    · simp
    · cases hnext : system.stream.pending <;> simp
  case h_2 _ _ heq | h_3 _ _ heq | h_4 _ _ heq =>
    simp only [heq] at hphase
    split_ifs at hstep <;> cases hstep
    · exact ⟨by grind, by grind, by grind⟩
    · exact ⟨hpending, horder, trivial⟩
  case h_5 _ heq =>
    simp only [heq] at hphase
    cases hstep
    exact ⟨hpending, horder, by grind⟩
  case h_6 =>
    cases hstep
    exact ⟨hpending, horder, trivial⟩
  case h_7 heq =>
    simp only [heq] at hphase
    cases hstep
    exact ⟨by grind, by grind, trivial⟩
  case h_8 => cases hstep

theorem sound_iff (h : Inv system) : Sound event system ↔ StartsClean event system := by
  constructor
  · rintro ⟨hsound, -⟩ index hphase hqueued other hother
    have hstarting := h.phase
    simp only [hphase] at hstarting
    have hnot := hsound index hqueued
    by_contra hle
    obtain rfl | hlt := (Nat.not_lt.mp hle).eq_or_lt
    · exact hnot hother
    · exact hnot (h.order hstarting.1 other hother index hlt)
  · intro hclean
    refine ⟨fun index hqueued hmem => ?_, fun buffer next hslice hstep => ?_⟩
    · have hphase := h.phase
      unfold queued at hqueued
      split at hqueued
      case h_1 first ok heq =>
        split_ifs at hqueued
        cases hqueued
        exact absurd (hclean index heq (by simp [queued, *]) index hmem) (Nat.lt_irrefl _)
      case h_2 heq =>
        cases hqueued
        simp only [heq] at hphase
        exact (h.pending index hphase).2 hmem
      case h_3 => cases hqueued
    · unfold slice at hslice
      split at hslice
      case h_1 index bytesused heq =>
        obtain ⟨length, -, rfl⟩ := Option.map_eq_some_iff.mp hslice
        simp only [step, heq, Option.some.injEq] at hstep
        subst hstep
        simp
      case h_2 => cases hslice

/-- A start that failed after the driver had taken a buffer, and a later call
that queues.  Until STREAMON succeeds, every call is a start. -/
def RestartsAfterQbuf (events : List Event) : Prop :=
  ∃ before between ok rest, events = before ++ .qbuf true :: between ++ .call :: .qbuf ok :: rest ∧
    .streamon true ∉ before ++ between

theorem RestartsAfterQbuf.append {past : List Event} (h : RestartsAfterQbuf past) (later) :
    RestartsAfterQbuf (past ++ later) := by
  obtain ⟨before, between, ok, rest, rfl, hnot⟩ := h
  exact ⟨before, between, ok, rest ++ later, by simp, hnot⟩

/-- What the driver's answers so far say about a stream that is not started. -/
structure Answered (past : List Event) (system : System) : Prop where
  inv : Inv system
  streaming : system.stream.streaming = false ↔ .streamon true ∉ past
  held : system.stream.streaming = false → (system.held = [] ↔ .qbuf true ∉ past)
  first : system.phase = .starting 0 → ∃ earlier, past = earlier ++ [.call]
  later : ∀ index, system.phase = .starting (index + 1) → ∀ other ∈ system.held, index < other →
    RestartsAfterQbuf past

theorem restartsAfterQbuf_of_first {earlier : List Event} (hqbuf : .qbuf true ∈ earlier ++ [.call])
    (hstreamon : .streamon true ∉ earlier ++ [.call]) (ok rest) :
    RestartsAfterQbuf (earlier ++ [.call] ++ .qbuf ok :: rest) := by
  have hmem : .qbuf true ∈ earlier := by simpa using hqbuf
  obtain ⟨before, between, rfl⟩ := List.append_of_mem hmem
  exact ⟨before, between, ok, rest, by simp, by simpa using hstreamon⟩

theorem Answered.started {past} (hinv : Inv system) (hon : system.stream.streaming = true)
    (hpast : .streamon true ∈ past) : Answered past system := by
  have hphase := hinv.phase
  refine ⟨hinv, by simp [hon, hpast], by simp [hon], fun hfirst => ?_, fun index hlater => ?_⟩
  · simp [hfirst, hon] at hphase
  · simp [hlater, hon] at hphase

theorem Answered.step {past} (h : Answered past system) (hstep : step event system = some next) :
    Answered (past ++ [event]) next := by
  have hinv := h.inv.step hstep
  obtain ⟨⟨hpending, -, hphase⟩, hstreaming, hheld, hfirst, hlater⟩ := h
  unfold Mplane.step at hstep
  split at hstep
  case h_1 =>
    cases hstep
    refine ⟨hinv, by simpa using hstreaming, by simpa using hheld, fun _ => ⟨past, rfl⟩, ?_⟩
    cases hon : system.stream.streaming
    · simp
    · cases hpending : system.stream.pending <;> simp
  case h_2 index ok heq =>
    simp only [heq] at hphase
    split_ifs at hstep with hlt hok <;> cases hstep
    · subst hok
      refine ⟨hinv, by simpa using hstreaming, by simp, nofun, ?_⟩
      rintro _ ⟨⟩ other hother hgt
      have hmem : other ∈ system.held :=
        (List.mem_cons.mp hother).resolve_left (Nat.ne_of_gt hgt)
      cases index with
      | zero =>
        -- the first buffer of a start, and the driver has one already
        obtain ⟨earlier, rfl⟩ := hfirst heq
        have hqbuf := mt (hheld hphase.1).mpr (List.ne_nil_of_mem hmem)
        exact restartsAfterQbuf_of_first (not_not.mp hqbuf) (hstreaming.mp hphase.1) true []
      | succ index => exact (hlater index heq other hmem (Nat.lt_of_succ_lt hgt)).append _
    · exact ⟨hinv, by simpa using hstreaming, by simpa [hok] using hheld, nofun, nofun⟩
  case h_3 index ok heq =>
    simp only [heq] at hphase
    split_ifs at hstep with hlt hok <;> cases hstep
    · exact ⟨hinv, by simp [hok], nofun, nofun, nofun⟩
    · exact ⟨hinv, by simpa [hok] using hstreaming, by simpa using hheld, nofun, nofun⟩
  case h_4 index ok heq =>
    simp only [heq] at hphase
    have hon := (hpending index hphase).1
    split_ifs at hstep <;> cases hstep <;> exact .started hinv hon (by simpa [hon] using hstreaming)
  case h_5 _ heq | h_6 heq | h_7 heq =>
    simp only [heq] at hphase
    cases hstep
    exact .started hinv hphase (by simpa [hphase] using hstreaming)
  case h_8 => cases hstep

theorem eq_of_step_call {called} (hoff : system.stream.streaming = false)
    (hcall : Mplane.step .call system = some called) :
    called = { system with phase := .starting 0 } := by
  unfold Mplane.step at hcall
  split at hcall <;> simp_all

theorem not_sound_of_held {called ok} (hinv : Inv system) (hoff : system.stream.streaming = false)
    (hheld : system.held ≠ []) (hcall : Mplane.step .call system = some called)
    (hqbuf : Mplane.step (.qbuf ok) called = some next) : ¬ Sound (.qbuf ok) called := by
  obtain ⟨other, hother⟩ := List.exists_mem_of_ne_nil _ hheld
  have hzero : 0 ∈ system.held := by
    obtain rfl | hpos := other.eq_zero_or_pos
    · exact hother
    · exact hinv.order hoff other hother 0 hpos
  rintro ⟨hsound, -⟩
  obtain rfl := eq_of_step_call hoff hcall
  have hlt : 0 < system.stream.mappings.length := by
    by_contra hnot
    simp [step, hnot] at hqbuf
  exact hsound 0 (by simp [queued, hlt]) hzero

theorem eq_qbuf_of_queued {index} (h : queued event system = some index) :
    ∃ ok, event = .qbuf ok := by
  unfold queued at h
  split at h
  · exact ⟨_, rfl⟩
  · exact ⟨_, rfl⟩
  · cases h

/-- No buffer that the driver holds is queued or handed out exactly if no call
queues after an earlier start failed with a buffer taken. -/
theorem calls_sound_iff (mappings : List Nat) (events : List Event) {final : System}
    (hrun : run step events (opened mappings) = some final) :
    Obeys step Sound events (opened mappings) ↔ ¬ RestartsAfterQbuf events := by
  have hopened : Answered [] (opened mappings) :=
    ⟨⟨nofun, nofun, trivial⟩, by simp [opened], by simp [opened], nofun, nofun⟩
  have hanswered {past mid} (hpast : run step past (opened mappings) = some mid) :
      Answered past mid := run_traces (fun _ _ _ _ h => h.step) hopened hpast
  rw [obeys_iff]
  constructor
  · rintro hsound ⟨before, between, ok, rest, rfl, hstreamon⟩
    obtain ⟨mid, hpast, hrest⟩ := run_append_eq_some.mp hrun
    obtain ⟨called, hcall, hrest⟩ := run_cons_eq_some.mp hrest
    obtain ⟨next, hqbuf, -⟩ := run_cons_eq_some.mp hrest
    obtain ⟨hinv, hoff, hheld, -, -⟩ := hanswered hpast
    have hoff := hoff.mpr (by simpa using hstreamon)
    have hmem := mt (hheld hoff).mp (by simp)
    have hcalled := hsound _ _ rest called (List.append_cons ..)
      (run_append_eq_some.mpr ⟨mid, hpast, by rw [run, hcall]; rfl⟩)
    exact not_sound_of_held hinv hoff hmem hcall hqbuf hcalled
  · rintro hnot past event rest mid rfl hpast
    have h := hanswered hpast
    rw [sound_iff h.inv]
    intro index hphase hqueued other hother
    by_contra hge
    have hoff := h.inv.phase
    simp only [hphase] at hoff
    refine hnot ?_
    cases index with
    | zero =>
      obtain ⟨earlier, rfl⟩ := h.first hphase
      obtain ⟨ok, rfl⟩ := eq_qbuf_of_queued hqueued
      have hqbuf := mt (h.held hoff.1).mpr (List.ne_nil_of_mem hother)
      exact restartsAfterQbuf_of_first (not_not.mp hqbuf) (h.streaming.mp hoff.1) ok rest
    | succ index => exact (h.later index hphase other hother (Nat.not_lt.mp hge)).append _

/-- The only buffer is refused, and then taken, filled and queued again. -/
def firstRefused : List Event :=
  [.call, .qbuf false, .call, .qbuf true, .streamon true, .poll (some true),
    .dqbuf (some (0, 640)), .call, .qbuf true]

/-- A start that fails before the driver took a buffer does no harm. -/
theorem calls_sound_iff_refused :
    ¬ RestartsAfterQbuf firstRefused ∧ Obeys step Sound firstRefused (opened [640]) := by
  have hnot : ¬ RestartsAfterQbuf firstRefused := by
    rintro ⟨before, between, ok, rest, heq, hstreamon⟩
    rw [firstRefused, List.append_assoc] at heq
    -- the fourth event is the only QBUF in front of STREAMON that succeeds
    obtain _ | ⟨_, _ | ⟨_, _ | ⟨_, _ | ⟨_, _ | ⟨_, before⟩⟩⟩⟩⟩ := before <;>
      injections <;> cases between <;> simp_all
  exact ⟨hnot, (calls_sound_iff [640] firstRefused rfl).mpr hnot⟩

/-- The first buffer is taken and the second refused, and then there is
another call. -/
def secondRefused : List Event :=
  [.call, .qbuf true, .qbuf false, .call, .qbuf true]

/-- The second call queues the first buffer again. -/
theorem first_buffer_queued_twice : ¬ Obeys step Sound secondRefused (opened [640, 640]) := by
  intro h
  have htwice := (h.2 _ rfl).2 _ rfl |>.2 _ rfl |>.2 _ rfl |>.1.1 0 rfl
  revert htwice
  decide

end Facelock.Mplane
