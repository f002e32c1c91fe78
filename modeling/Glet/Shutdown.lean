import Glet.LoadControl

/-!
# Shutting a proxy down

`endProxy` sets the state of a proxy to `EXITING`. The proxy's `control` thread
sees that within a second and sets `g_exitFlag`, the other threads end, and the
main thread marks the proxy `FLUSHED` and, when the input is closed, `COLD`.

Two threads of the proxy write `RUNNING`: `compute` once, when it has started,
and `loadControl` after a command. The state must not become `RUNNING` after
`EXITING`, for `control` would then never see `EXITING` and the frontend would
wait for `FLUSHED` forever. It does if `endProxy` comes between the test and the
mark of `loadControl`, or before the mark of `compute`; and it does if
`loadControl`, which nobody waits for, is still busy with a command when the
main thread replaces `EXITING` by `FLUSHED`.
-/

namespace Glet.Proxy

/-! ## State -/

/-- Where the main thread of the proxy is. -/
inductive MainPc where
  /-- In `pthread_join` for `control` and `compute`. -/
  | joining
  | flushed
  | cold
  deriving DecidableEq

structure Life where
  loader : Loader
  exitFlag : Bool
  /-- `compute` has marked the proxy `RUNNING`. -/
  computeUp : Bool
  computeDone : Bool
  inputClosed : Bool
  main : MainPc
  /-- `endProxy` was called. -/
  ended : Bool
  deriving DecidableEq

/-- The proxy has just been started. -/
def Life.start : Life where
  loader := ⟨.booting, [], [], .waiting⟩
  exitFlag := false
  computeUp := false
  computeDone := false
  inputClosed := true
  main := .joining
  ended := false

namespace Life

/-! ## Steps -/

inductive Act where
  | endProxy
  /-- The backend marks the proxy `LOADING` and sends a command. -/
  | command
  /-- `recvInput` queues a command. -/
  | push (q : Command)
  | take
  | perform
  | test
  /-- `loadControl` marks the proxy `RUNNING`. -/
  | markRunning
  /-- `compute` has started and marks the proxy `RUNNING`. -/
  | computeReady
  | computeExit
  /-- `control` reads the state. -/
  | sample
  | accept
  | close
  | flush
  | goCold
  deriving DecidableEq

def step : Act → Life → Option Life
  | .endProxy, s =>
      if s.ended = false ∧ s.main = .joining then
        some { s with loader := s.loader.markProxy .exiting, ended := true }
      else none
  -- the frontend shuts a proxy down when it has no more commands for it
  | .command, s =>
      if s.ended = false ∧ s.main = .joining then
        some { s with loader := s.loader.markProxy .loading }
      else none
  | .push q, s => if s.main = .cold then none else (s.loader.push q).map fun l => { s with loader := l }
  | .take, s =>
      if s.main = .cold then none else (s.loader.take s.exitFlag).map fun l => { s with loader := l }
  | .perform, s =>
      if s.main = .cold then none else s.loader.perform.map fun l => { s with loader := l }
  | .test, s => if s.main = .cold then none else s.loader.test.map fun l => { s with loader := l }
  | .markRunning, s =>
      if s.main = .cold then none else s.loader.mark.map fun l => { s with loader := l }
  | .computeReady, s =>
      if s.computeUp = true then none
      else some { s with loader := s.loader.markProxy .running, computeUp := true }
  | .computeExit, s =>
      if s.computeUp = true ∧ s.exitFlag = true then some { s with computeDone := true } else none
  | .sample, s =>
      if s.loader.state = .exiting then some { s with exitFlag := true } else some s
  | .accept, s =>
      if s.inputClosed = true ∧ s.exitFlag = false then some { s with inputClosed := false } else none
  | .close, s => some { s with inputClosed := true }
  | .flush, s =>
      if s.main = .joining ∧ s.exitFlag = true ∧ s.computeDone = true then
        some { s with loader := s.loader.markProxy .flushed, main := .flushed }
      else none
  | .goCold, s =>
      if s.main = .flushed ∧ s.inputClosed = true then
        some { s with loader := s.loader.markProxy .cold, main := .cold }
      else none

/-- From `endProxy` on, the state is not `RUNNING` until the proxy is `COLD`. -/
def StaysDown (s : Life) : Prop :=
  s.ended = true → s.main ≠ .cold → s.loader.state ≠ .running

/-- `endProxy` comes when `compute` has started and `loadControl` is not between
its test and its mark, and the main thread marks the proxy `FLUSHED` when
`loadControl` has no command in hand. -/
def Settled (s : Life) : Act → Prop
  | .endProxy => s.computeUp = true ∧ s.loader.pc ≠ .marking
  | .flush => s.loader.mtxFree = true
  | _ => True

instance (s : Life) (a : Act) : Decidable (Settled s a) := by
  unfold Settled
  split <;> infer_instance

/-! ## The way down -/

/-- What holds from `endProxy` to `COLD`. -/
structure Down (s : Life) : Prop where
  up : s.computeUp = true
  notMarking : s.loader.pc ≠ .marking
  joining : s.main = .joining → s.loader.state = .exiting
  flushed : s.main = .flushed →
    s.loader.state = .flushed ∧ s.exitFlag = true ∧ s.loader.mtxFree = true

/-- The exit flag, the state `EXITING` and the main thread being past its wait
say that the proxy was told to exit. -/
structure Inv (s : Life) : Prop where
  exitFlag : s.exitFlag = true → s.ended = true
  exiting : s.loader.state = .exiting → s.ended = true
  main : s.main ≠ .joining → s.ended = true
  down : s.ended = true → s.main ≠ .cold → Down s

variable {s s' : Life} {a : Act}

theorem inv_start : Inv start :=
  ⟨fun h => (by cases h), fun h => (by cases h), fun h => absurd rfl h, fun h => by cases h⟩

theorem Inv.staysDown (h : Inv s) : StaysDown s := by
  intro hended hcold
  have hdown := h.down hended hcold
  cases hmain : s.main with
  | joining => rw [hdown.joining hmain]; decide
  | flushed => rw [(hdown.flushed hmain).1]; decide
  | cold => exact absurd hmain hcold

/-- `loadControl` moves and leaves the state as it is. -/
theorem Inv.loader (h : Inv s) {l : Loader} (hstate : l.state = s.loader.state)
    (hpc : s.ended = true → s.main ≠ .cold → l.pc ≠ .marking)
    (hfree : s.ended = true → s.main = .flushed → l.mtxFree = true) :
    Inv { s with loader := l } where
  exitFlag := h.exitFlag
  exiting := by
    intro hexiting
    exact h.exiting (hstate ▸ hexiting)
  main := h.main
  down := by
    intro hended hcold
    have hdown := h.down hended hcold
    refine ⟨hdown.up, hpc hended hcold, ?_, ?_⟩
    · intro hmain
      exact hstate.trans (hdown.joining hmain)
    · intro hmain
      exact ⟨hstate.trans (hdown.flushed hmain).1, (hdown.flushed hmain).2.1, hfree hended hmain⟩

/-- `compute` ends, or the input is opened or closed. -/
theorem Inv.others (h : Inv s) (computeDone inputClosed : Bool) :
    Inv { s with computeDone := computeDone, inputClosed := inputClosed } where
  exitFlag := h.exitFlag
  exiting := h.exiting
  main := h.main
  down := by
    intro hended hcold
    have hdown := h.down hended hcold
    exact ⟨hdown.up, hdown.notMarking, hdown.joining, hdown.flushed⟩

/-- `loadControl` ends with the process. -/
theorem loader_eq_some {o : Option Loader}
    (h : (if s.main = .cold then none else o.map fun l => { s with loader := l }) = some s') :
    s.main ≠ .cold ∧ ∃ l, o = some l ∧ s' = { s with loader := l } := by
  split at h
  case isTrue => cases h
  case isFalse hcold =>
    obtain ⟨l, hl, rfl⟩ := Option.map_eq_some_iff.mp h
    exact ⟨hcold, l, hl, rfl⟩

theorem Inv.step (h : Inv s) (hsettled : Settled s a) (hstep : step a s = some s') : Inv s' := by
  cases a <;> simp only [Life.step] at hstep
  case endProxy =>
    split at hstep <;> cases hstep
    case isTrue hcan =>
      obtain ⟨hup, hmarking⟩ := hsettled
      refine ⟨fun _ => rfl, fun _ => rfl, fun _ => rfl, fun _ _ => ⟨hup, hmarking, fun _ => rfl, ?_⟩⟩
      intro hmain
      rw [show s.main = .flushed from hmain] at hcan
      cases hcan.2
  case command =>
    split at hstep <;> cases hstep
    case isTrue hcan =>
      refine ⟨h.exitFlag, fun heq => (by cases heq), h.main, fun hended => ?_⟩
      rw [show s.ended = true from hended] at hcan
      cases hcan.1
  case push q =>
    obtain ⟨hcold, l, hl, rfl⟩ := loader_eq_some hstep
    obtain ⟨hfree, rfl⟩ := Loader.push_eq_some hl
    exact h.loader rfl (fun hended hcold => (h.down hended hcold).notMarking) fun _ _ => hfree
  case take =>
    obtain ⟨hcold, l, hl, rfl⟩ := loader_eq_some hstep
    obtain ⟨hpc, ⟨hexit, rfl⟩ | ⟨hexit, q, rest, hq, rfl⟩⟩ := Loader.take_eq_some hl
    · exact h.loader rfl (fun _ _ => by simp) fun _ _ => by simp [Loader.mtxFree]
    · refine h.loader rfl (fun _ _ => by simp) fun hended hmain => ?_
      have hflag := ((h.down hended hcold).flushed hmain).2.1
      rw [hexit] at hflag
      cases hflag
  case perform =>
    obtain ⟨hcold, l, hl, rfl⟩ := loader_eq_some hstep
    obtain ⟨q, hpc, rfl⟩ := Loader.perform_eq_some hl
    refine h.loader rfl (fun _ _ => by simp) fun hended hmain => ?_
    have hfree := ((h.down hended hcold).flushed hmain).2.2
    simp [Loader.mtxFree, hpc] at hfree
  case test =>
    obtain ⟨hcold, l, hl, rfl⟩ := loader_eq_some hstep
    obtain ⟨hpc, ⟨hq, hstate, rfl⟩ | rfl⟩ := Loader.test_eq_some hl
    · have hnot : s.ended ≠ true := by
        intro hended
        have hdown := h.down hended hcold
        cases hmain : s.main with
        | joining => exact hstate (hdown.joining hmain)
        | flushed =>
            have hfree := (hdown.flushed hmain).2.2
            simp [Loader.mtxFree, hpc] at hfree
        | cold => exact hcold hmain
      exact h.loader rfl (fun hended => absurd hended hnot) fun hended => absurd hended hnot
    · exact h.loader rfl (fun _ _ => by simp) fun _ _ => by simp [Loader.mtxFree]
  case markRunning =>
    obtain ⟨hcold, l, hl, rfl⟩ := loader_eq_some hstep
    obtain ⟨hpc, rfl⟩ := Loader.mark_eq_some hl
    refine ⟨h.exitFlag, fun heq => (by cases heq), h.main, fun hended _ => ?_⟩
    exact absurd hpc (h.down hended hcold).notMarking
  case computeReady =>
    split at hstep <;> cases hstep
    case isFalse hup =>
      refine ⟨h.exitFlag, fun heq => (by cases heq), h.main, fun hended hcold => ?_⟩
      exact absurd (h.down hended hcold).up hup
  case computeExit =>
    split at hstep <;> cases hstep
    exact h.others true s.inputClosed
  case sample =>
    split at hstep <;> cases hstep
    case isFalse => exact h
    case isTrue hexiting =>
      refine ⟨fun _ => h.exiting hexiting, h.exiting, h.main, fun hended hcold => ?_⟩
      have hdown := h.down hended hcold
      exact ⟨hdown.up, hdown.notMarking, hdown.joining, fun hmain =>
        have hfl := hdown.flushed hmain
        ⟨hfl.1, rfl, hfl.2.2⟩⟩
  case accept =>
    split at hstep <;> cases hstep
    exact h.others s.computeDone false
  case close =>
    cases hstep
    exact h.others s.computeDone true
  case flush =>
    split at hstep <;> cases hstep
    case isTrue hcan =>
      obtain ⟨hmain, hflag, -⟩ := hcan
      have hended := h.exitFlag hflag
      refine ⟨h.exitFlag, fun heq => (by cases heq), fun _ => hended, fun _ _ => ?_⟩
      have hdown := h.down hended (by rw [hmain]; decide)
      exact ⟨hdown.up, hdown.notMarking, fun heq => (by cases heq), fun _ => ⟨rfl, hflag, hsettled⟩⟩
  case goCold =>
    split at hstep <;> cases hstep
    case isTrue hcan =>
      have hended := h.main (by rw [hcan.1]; decide)
      exact ⟨h.exitFlag, fun heq => (by cases heq), fun _ => hended, fun _ hcold => absurd rfl hcold⟩

/-- In every run in which `endProxy` and the mark `FLUSHED` come when the
proxy's threads are settled, a proxy that was told to exit does not become
`RUNNING` again before it is `COLD`. -/
theorem stays_down {acts : List Act} (hrun : Machine.run step acts start = some s)
    (hsettled : Machine.Along step Settled acts start) : StaysDown s :=
  (Machine.run_along (fun _ _ _ hI hC hs => Inv.step hI hC hs) hsettled hrun inv_start).staysDown

/-- A command that comes late does not bring the proxy back. -/
theorem stays_down_late_command :
    ∃ s, Machine.run step [.computeReady, .accept, .command, .endProxy, .push (.unload 3), .take,
        .perform, .test, .sample, .computeExit, .take, .flush] start = some s ∧
      s.ended = true ∧ s.loader.state = .flushed ∧ StaysDown s := by
  have hrun : Machine.run step [.computeReady, .accept, .command, .endProxy, .push (.unload 3), .take,
      .perform, .test, .sample, .computeExit, .take, .flush] start = some _ := rfl
  exact ⟨_, hrun, rfl, rfl, stays_down hrun (by decide)⟩

/-- `endProxy` between the test and the mark of `loadControl`: `control` does
not see `EXITING` any more. -/
theorem exiting_overwritten :
    ∃ s s', Machine.run step [.computeReady, .accept, .command, .push (.unload 3), .take, .perform,
        .test, .endProxy, .markRunning] start = some s ∧ s.ended = true ∧ s.main = .joining ∧
      s.loader.state = .running ∧ ¬ StaysDown s ∧
      step .sample s = some s' ∧ s'.exitFlag = false := by
  refine ⟨_, _, rfl, rfl, rfl, rfl, fun h => ?_, rfl, rfl⟩
  exact h rfl (by decide) rfl

end Life

end Glet.Proxy
