/-
Module: Avbroot.Signing.PopenPatch
Purpose: The process-wide binding of `subprocess.Popen` while `patch_ota_payload` runs its
  `patch_boot` workers on a thread pool. Each worker evaluates
  `openssl.inject_passphrase(passphrase)`, whose `_PopenPassphraseWrapper` captures the current
  `subprocess.Popen` (`capture`); enters `unittest.mock.patch('subprocess.Popen', ...)`, which saves
  the current binding and binds a mock calling the wrapper (`enter`); starts processes through
  `avb.add_hash_footer` (`launch`); and leaves the scope, which binds the saved value again
  (`exit`). The threads share one binding, so a run is any interleaving of the workers' steps; a
  step out of a worker's program order is refused.
Trusted boundary: POSIX only (`os.name != 'nt'`): the passphrase reaches `openssl` through
  `-passin fd:N`, and the argument `fd:N` is represented by the passphrase its pipe holds. The real
  `Popen` is represented by the argument list it receives.
Main exports: Popen, Popen.call, Phase, Process, Event, Process.step, Process.run, scope,
  Nested, run_nested_restores, run_serial_scopes
-/
import Mathlib.Data.List.Basic

namespace Avbroot

/-- One argument of a command line. -/
inductive Arg where
  | text (s : String)
  /-- `f'fd:{fd}'` for the read end of a pipe holding `passphrase` -/
  | passphraseFd (passphrase : String)
deriving DecidableEq, Repr

/-- The value bound to `subprocess.Popen`. -/
inductive Popen where
  /-- the function of the `subprocess` module -/
  | original
  /-- the mock of `inject_passphrase(passphrase)`, whose wrapper captured `origPopen` -/
  | wrapper (passphrase : Option String) (origPopen : Popen)
deriving DecidableEq, Repr

/-- `os.path.basename(path)`: what follows the last separator. -/
def baseName (path : String) : String :=
  ⟨(path.data.reverse.takeWhile (· ≠ '/')).reverse⟩

/-- `cmd and os.path.basename(cmd[0]) == 'openssl'`. -/
def isOpensslCommand : List Arg → Bool
  | .text program :: _ => baseName program = "openssl"
  | _ => false

/-- `subprocess.Popen(cmd)` under a binding: the argument list the real `Popen` receives.
`_PopenPassphraseWrapper.__call__` appends `-passin fd:N` to an `openssl` command when its
passphrase is not `None`, and calls the `Popen` it captured. -/
def Popen.call : Popen → List Arg → List Arg
  | .original, cmd => cmd
  | .wrapper (some passphrase) origPopen, cmd =>
    if isOpensslCommand cmd then
      origPopen.call (cmd ++ [.text "-passin", .passphraseFd passphrase])
    else origPopen.call cmd
  | .wrapper none origPopen, cmd => origPopen.call cmd

/-- Where a worker is in the signing scope of `patch_boot`. -/
inductive Phase where
  /-- before `openssl.inject_passphrase(passphrase)` is evaluated -/
  | ready
  /-- the wrapper is built and holds `origPopen`; the mock is not bound yet -/
  | captured (origPopen : Popen)
  /-- inside the scope; `patch.__enter__` saved `saved` -/
  | inside (saved : Popen)
  /-- `patch.__exit__` bound the saved value again -/
  | done
deriving DecidableEq, Repr

/-- A process started by a worker: the command it asked for and the arguments `openssl` got. -/
structure Launch where
  worker : Nat
  cmd : List Arg
  argv : List Arg
deriving DecidableEq, Repr

/-- The shared binding, each worker's phase, and the processes started so far. -/
structure Process where
  popen : Popen
  phase : Nat → Phase
  started : List Launch

/-- The process before the pool starts. -/
def Process.initial : Process where
  popen := .original
  phase _ := .ready
  started := []

/-- A step of one worker. -/
inductive Event where
  | capture (worker : Nat)
  | enter (worker : Nat)
  | launch (worker : Nat) (cmd : List Arg)
  | exit (worker : Nat)
deriving DecidableEq, Repr

/-- One step; `none` for a step out of the worker's program order. `passphrase w` is the
passphrase worker `w` hands `inject_passphrase`. -/
def Process.step (passphrase : Nat → Option String) (s : Process) : Event → Option Process
  | .capture w =>
    match s.phase w with
    | .ready => some { s with phase := Function.update s.phase w (.captured s.popen) }
    | _ => none
  | .enter w =>
    match s.phase w with
    | .captured origPopen =>
      some { s with popen := .wrapper (passphrase w) origPopen,
                    phase := Function.update s.phase w (.inside s.popen) }
    | _ => none
  | .launch w cmd =>
    match s.phase w with
    | .inside _ => some { s with started := s.started ++ [⟨w, cmd, s.popen.call cmd⟩] }
    | _ => none
  | .exit w =>
    match s.phase w with
    | .inside saved => some { s with popen := saved, phase := Function.update s.phase w .done }
    | _ => none

/-- An interleaving of steps, run from `s`. -/
def Process.run (passphrase : Nat → Option String) : Process → List Event → Option Process
  | s, [] => some s
  | s, e :: rest => (s.step passphrase e).bind fun s' => Process.run passphrase s' rest

/-- `with openssl.inject_passphrase(passphrase): body` by worker `w`. -/
def scope (w : Nat) (body : List Event) : List Event :=
  [.capture w, .enter w] ++ body ++ [.exit w]

/-- An `openssl` command under a single wrapper over the original `Popen` gets one `-passin`,
carrying the wrapper's passphrase. -/
theorem wrapper_original_call (passphrase : String) (cmd : List Arg) :
    (Popen.wrapper (some passphrase) .original).call cmd =
      if isOpensslCommand cmd then cmd ++ [.text "-passin", .passphraseFd passphrase] else cmd := by
  simp only [Popen.call]

/-! ### What one step does -/

section Steps

variable {passphrase : Nat → Option String} {s s' : Process} {w : Nat}

theorem step_capture (stepped : s.step passphrase (.capture w) = some s') :
    s.phase w = .ready ∧
      s' = { s with phase := Function.update s.phase w (.captured s.popen) } := by
  simp only [Process.step] at stepped
  split at stepped
  · rename_i ready
    exact ⟨ready, (Option.some.inj stepped).symm⟩
  · cases stepped

theorem step_enter (stepped : s.step passphrase (.enter w) = some s') :
    ∃ origPopen, s.phase w = .captured origPopen ∧
      s' = { s with popen := .wrapper (passphrase w) origPopen,
                    phase := Function.update s.phase w (.inside s.popen) } := by
  simp only [Process.step] at stepped
  split at stepped
  · rename_i origPopen captured
    exact ⟨origPopen, captured, (Option.some.inj stepped).symm⟩
  · cases stepped

theorem step_launch {cmd : List Arg} (stepped : s.step passphrase (.launch w cmd) = some s') :
    (∃ saved, s.phase w = .inside saved) ∧
      s' = { s with started := s.started ++ [⟨w, cmd, s.popen.call cmd⟩] } := by
  simp only [Process.step] at stepped
  split at stepped
  · rename_i saved inside
    exact ⟨⟨saved, inside⟩, (Option.some.inj stepped).symm⟩
  · cases stepped

theorem step_exit (stepped : s.step passphrase (.exit w) = some s') :
    ∃ saved, s.phase w = .inside saved ∧
      s' = { s with popen := saved, phase := Function.update s.phase w .done } := by
  simp only [Process.step] at stepped
  split at stepped
  · rename_i saved inside
    exact ⟨saved, inside, (Option.some.inj stepped).symm⟩
  · cases stepped

end Steps

@[simp] theorem run_nil (passphrase : Nat → Option String) (s : Process) :
    s.run passphrase [] = some s := rfl

theorem run_cons (passphrase : Nat → Option String) (s : Process) (e : Event)
    (rest : List Event) :
    s.run passphrase (e :: rest) = (s.step passphrase e).bind fun s' => s'.run passphrase rest :=
  rfl

theorem run_append (passphrase : Nat → Option String) (s : Process) (first second : List Event) :
    s.run passphrase (first ++ second) =
      (s.run passphrase first).bind fun s' => s'.run passphrase second := by
  induction first generalizing s with
  | nil => rfl
  | cons e rest inductionHypothesis =>
    rw [List.cons_append, run_cons, run_cons]
    cases s.step passphrase e <;> simp [inductionHypothesis]

/-!
### Nested scopes restore the binding

A scope that opens inside another and closes before it, as re-entrant use in one thread does,
binds on exit what it saved on entry. By induction over the nesting, a run made of nested scopes
leaves `subprocess.Popen` as it found it, and leaves every scope that was open still open.
-/

/-- Interleavings in which scopes nest: each scope that opens inside another closes inside it. -/
inductive Nested : List Event → Prop
  | nil : Nested []
  | launch (w : Nat) (cmd : List Arg) {rest : List Event} : Nested rest →
      Nested (.launch w cmd :: rest)
  | scope (w : Nat) {body rest : List Event} : Nested body → Nested rest →
      Nested (scope w body ++ rest)

theorem run_nested_restores {passphrase : Nat → Option String} {events : List Event}
    (nested : Nested events) :
    ∀ {s s' : Process}, s.run passphrase events = some s' →
      s'.popen = s.popen ∧ ∀ w saved, s.phase w = .inside saved → s'.phase w = .inside saved := by
  induction nested with
  | nil =>
    intro s s' ran
    cases ran
    exact ⟨rfl, fun _ _ inside => inside⟩
  | launch w cmd _ inductionHypothesis =>
    intro s s' ran
    rw [run_cons, Option.bind_eq_some] at ran
    obtain ⟨launched, stepped, ran⟩ := ran
    obtain ⟨-, rfl⟩ := step_launch stepped
    have restores := inductionHypothesis ran
    exact restores
  | scope w _ _ bodyRestores restRestores =>
    intro s s' ran
    simp only [scope, List.append_assoc, List.cons_append, List.singleton_append, List.nil_append,
      run_cons, run_append, Option.bind_eq_some] at ran
    obtain ⟨captured, capturing, entered, entering, finished, ranBody, exited, exiting, ran⟩ := ran
    obtain ⟨ready, rfl⟩ := step_capture capturing
    obtain ⟨origPopen, capturedAt, rfl⟩ := step_enter entering
    simp only [Function.update_same, Phase.captured.injEq] at capturedAt
    subst capturedAt
    obtain ⟨bodyPopen, bodyPhases⟩ := bodyRestores ranBody
    obtain ⟨saved, insideAt, rfl⟩ := step_exit exiting
    have savedHere := bodyPhases w s.popen (by simp)
    rw [insideAt, Phase.inside.injEq] at savedHere
    obtain ⟨restPopen, restPhases⟩ := restRestores ran
    refine ⟨restPopen.trans savedHere, fun u saved' insideBefore => ?_⟩
    have other : u ≠ w := fun same => by rw [same, ready] at insideBefore; cases insideBefore
    apply restPhases
    simp only [Function.update_noteq other]
    exact bodyPhases u saved' (by simpa [Function.update_noteq other] using insideBefore)

/-- Worker `1` opens its scope inside worker `0`'s and closes it first: `Popen` is bound to the
original function again. -/
theorem reentrantScopes_restore :
    ∃ s', Process.initial.run (fun _ => some "avb-pass")
        (scope 0 (scope 1 [.launch 1 [.text "openssl"]] ++ []) ++ []) = some s' ∧
      s'.popen = Process.initial.popen :=
  have ran : Process.initial.run (fun _ => some "avb-pass")
      (scope 0 (scope 1 [.launch 1 [.text "openssl"]] ++ []) ++ []) = some _ := rfl
  ⟨_, ran, (run_nested_restores (.scope 0 (.scope 1 (.launch 1 _ .nil) .nil) .nil) ran).1⟩

/-!
### Scopes one after another

When no two scopes overlap, each worker's processes go through its own wrapper alone, over the
binding the pool started with, and every scope binds that value again on exit.
-/

theorem run_launches (passphrase : Nat → Option String) (w : Nat) (cmds : List (List Arg))
    (s : Process) {saved : Popen} (inside : s.phase w = .inside saved) :
    s.run passphrase (cmds.map (.launch w)) =
      some { s with started := s.started ++ cmds.map fun cmd => ⟨w, cmd, s.popen.call cmd⟩ } := by
  induction cmds generalizing s with
  | nil => simp
  | cons cmd rest inductionHypothesis =>
    rw [List.map_cons, run_cons]
    simp only [Process.step, inside, Option.some_bind]
    rw [inductionHypothesis _ (by exact inside)]
    simp

/-- One worker's whole scope, run while no other scope is open. -/
theorem run_scope_launches (passphrase : Nat → Option String) (w : Nat) (cmds : List (List Arg))
    (s : Process) (ready : s.phase w = .ready) :
    s.run passphrase (scope w (cmds.map (.launch w))) =
      some { popen := s.popen, phase := Function.update s.phase w .done,
             started := s.started ++ cmds.map fun cmd =>
               ⟨w, cmd, (Popen.wrapper (passphrase w) s.popen).call cmd⟩ } := by
  rw [scope, run_append, run_append]
  simp only [run_cons, run_nil, Process.step, ready, Option.some_bind, Function.update_same]
  rw [run_launches passphrase w cmds _ (Function.update_same _ _ _)]
  simp [Function.update_idem]

/-- Each worker in turn opens its scope, starts its processes and closes the scope before the next
worker evaluates `inject_passphrase`. -/
def serialScopes (blocks : List (Nat × List (List Arg))) : List Event :=
  blocks.flatMap fun block => scope block.1 (block.2.map (.launch block.1))

theorem run_serial_scopes (passphrase : Nat → Option String)
    (blocks : List (Nat × List (List Arg))) (distinct : (blocks.map Prod.fst).Nodup) (s : Process)
    (ready : ∀ block ∈ blocks, s.phase block.1 = .ready) :
    ∃ s', s.run passphrase (serialScopes blocks) = some s' ∧ s'.popen = s.popen ∧
      s'.started = s.started ++ blocks.flatMap fun block =>
        block.2.map fun cmd => ⟨block.1, cmd, (Popen.wrapper (passphrase block.1) s.popen).call cmd⟩ := by
  induction blocks generalizing s with
  | nil => exact ⟨s, rfl, rfl, by simp⟩
  | cons block rest inductionHypothesis =>
    rw [List.map_cons, List.nodup_cons] at distinct
    have restReady : ∀ later ∈ rest,
        (Function.update s.phase block.1 .done) later.1 = .ready := fun later member => by
      have other : later.1 ≠ block.1 := fun same =>
        distinct.1 (same ▸ List.mem_map_of_mem Prod.fst member)
      rw [Function.update_noteq other]
      exact ready later (List.mem_cons_of_mem _ member)
    obtain ⟨s', ran, popen, started⟩ := inductionHypothesis distinct.2
      { popen := s.popen, phase := Function.update s.phase block.1 .done,
        started := s.started ++ block.2.map fun cmd =>
          ⟨block.1, cmd, (Popen.wrapper (passphrase block.1) s.popen).call cmd⟩ } restReady
    refine ⟨s', ?_, popen, ?_⟩
    · rw [serialScopes, List.flatMap_cons, run_append, ← serialScopes,
        run_scope_launches _ _ _ _ (ready block (List.mem_cons_self _ _))]
      exact ran
    · rw [started, List.flatMap_cons, List.append_assoc]

/-- Two workers one after the other: each `openssl` gets the `-passin` of its own worker, once. -/
theorem serialScopes_own_passphrase :
    ∃ s', Process.initial.run (fun w => some (toString w))
        (serialScopes [(0, [[.text "openssl"]]), (1, [[.text "openssl"]])]) = some s' ∧
      s'.popen = Process.initial.popen ∧
      s'.started = [⟨0, [.text "openssl"], [.text "openssl", .text "-passin", .passphraseFd "0"]⟩,
        ⟨1, [.text "openssl"], [.text "openssl", .text "-passin", .passphraseFd "1"]⟩] :=
  run_serial_scopes _ _ (by decide) _ fun _ _ => rfl

/-!
### Overlapping scopes
-/

/-- The signing command of `avbtool`, which `avb.add_hash_footer` starts. -/
def avbSignCommand : List Arg :=
  [.text "openssl", .text "rsautl", .text "-sign", .text "-inkey", .text "avb.key", .text "-raw"]

/-- The command of `openssl.sign_data`, which signs the OTA with `passphrase_ota`. -/
def otaSignCommand : List Arg :=
  [.text "openssl", .text "pkeyutl", .text "-sign", .text "-inkey", .text "ota.key",
   .text "-keyform", .text "PEM", .text "-pkeyopt", .text "digest:sha256"]

/-- Workers `0` and `1` patch boot images with `passphrase_avb`; scope `2` is a later signing
scope with `passphrase_ota`. -/
def poolPassphrase (w : Nat) : Option String :=
  if w = 2 then some "ota-pass" else some "avb-pass"

/-- The two workers overlap: both enter before either exits, and they exit in the order they
entered. -/
def overlappingPool : List Event :=
  [.capture 0, .enter 0, .capture 1, .enter 1, .launch 0 avbSignCommand, .exit 0, .exit 1]

/-- Under the overlapping order the two mocks leak into each other. Worker `0` starts `openssl` while
worker `1`'s mock, which captured worker `0`'s, is bound, so its command gets two `-passin`
arguments. After both scopes have exited `subprocess.Popen` is worker `0`'s mock: worker `1`
restores what it saved on entry. The later signing scope chains onto that mock, and its `openssl`
gets `-passin` with the OTA passphrase followed by `-passin` with the AVB passphrase. -/
theorem popen_overlapping_scopes_leak :
    (Process.initial.run poolPassphrase overlappingPool).map (·.started) =
      some [⟨0, avbSignCommand, avbSignCommand ++
        [.text "-passin", .passphraseFd "avb-pass", .text "-passin", .passphraseFd "avb-pass"]⟩] ∧
    (Process.initial.run poolPassphrase overlappingPool).map (fun s => (s.phase 0, s.phase 1)) =
      some (.done, .done) ∧
    (Process.initial.run poolPassphrase overlappingPool).map (·.popen) =
      some (.wrapper (some "avb-pass") .original) ∧
    (Process.initial.run poolPassphrase (overlappingPool ++ scope 2 [.launch 2 otaSignCommand])).map
        (·.started.getLast?) =
      some (some ⟨2, otaSignCommand, otaSignCommand ++
        [.text "-passin", .passphraseFd "ota-pass", .text "-passin", .passphraseFd "avb-pass"]⟩) := by
  decide

end Avbroot
