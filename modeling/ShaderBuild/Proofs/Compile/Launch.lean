import ShaderBuild.Bytecode.Binary
import ShaderBuild.Launch
import ShaderBuild.Proofs.Breakdown
import ShaderBuild.Proofs.FileTree.Changes

namespace ShaderBuild.Launch

variable {system : System} {w w' : Workspace} {program : String} {arguments : List String}
  {timeout : Nat}

theorem deadline?_eq_none_iff {now : Nat} :
    deadline? now timeout = none ↔ lastSecond < (now + timeout) / 1000 := by
  unfold deadline?
  by_cases h : (now + timeout) / 1000 ≤ lastSecond
  · simp [if_pos h, Nat.not_lt.2 h]
  · simp [if_neg h, Nat.lt_of_not_le h]

/-- A system starts a program with some files at some time, and then it is later. -/
def Starts (system : System) (program : String) (arguments : List String) (t : FileTree)
    (now later : Nat) : Prop :=
  ∃ time p u, (system.start program arguments now).run t = ((time, .ok p), u) ∧ later = now + time

theorem start_run_of_ok {p : system.Process} {time : Nat} {t : FileTree}
    (h : (system.start program arguments w.clock).run w.files = ((time, .ok p), t)) :
    (start system program arguments).run.run w =
      (.ok p, { w with files := t, clock := w.clock + time }) := by
  rw [start, run_bind_of_ok (run_getThe w), h]
  rfl

theorem start_run_of_error {fault : String} {time : Nat} {t : FileTree}
    (h : (system.start program arguments w.clock).run w.files = ((time, .error fault), t)) :
    ∃ w', (start system program arguments).run.run w =
      (.error (.error (LaunchError.launch program fault)), w') := by
  rw [start, run_bind_of_ok (run_getThe w), h]
  exact ⟨_, rfl⟩

section Await

variable {p : system.Process} {deadline : Nat} {r : Finished} {t : FileTree}

theorem await_of_ended (h : (system.poll p w.clock).run w.files = (.ok (some r), t)) :
    await system program timeout p deadline w = (.ok r, { w with files := t }) := by
  rw [await, h]

/-- A program is given up at the first look behind its deadline, whatever it does. -/
theorem await_clock_lt :
    (await system program timeout p deadline w).2.clock <
      max (w.clock + 1) (deadline + interval) := by
  induction hn : deadline - w.clock using Nat.strongRecOn generalizing w with
  | _ n ih =>
    have hnow : w.clock < max (w.clock + 1) (deadline + interval) := by omega
    rw [await]
    rcases (system.poll p w.clock).run w.files with ⟨_ | _ | r, t⟩
    · exact hnow
    · dsimp only
      split
      · exact hnow
      next hearly =>
        have hinterval : 0 < interval := by decide
        have hnext := ih (deadline - (w.clock + interval)) (by omega)
          (w := { w with files := t, clock := w.clock + interval }) rfl
        dsimp only at hnext
        omega
    · exact hnow

end Await

theorem run_of_ended {time : Nat} {p : system.Process} {t u : FileTree} {r : Finished}
    (hstart : (system.start program arguments w.clock).run w.files = ((time, .ok p), t))
    (htime : (deadline? (w.clock + time) timeout).isSome)
    (hpoll : (system.poll p (w.clock + time)).run t = (.ok (some r), u)) :
    (run system program arguments timeout).run.run w =
      (.ok r, { w with files := u, clock := w.clock + time }) := by
  obtain ⟨deadline, hdeadline⟩ := Option.isSome_iff_exists.1 htime
  rw [run, run_bind_of_ok (start_run_of_ok hstart), run_bind_of_ok (run_getThe _), hdeadline]
  dsimp only
  rw [await_of_ended (w := { w with files := t, clock := w.clock + time }) hpoll,
    run_bind_of_ok (run_set _ _)]
  rfl

theorem run_of_late {later : Nat} (h : Starts system program arguments w.files w.clock later)
    (hlate : deadline? later timeout = none) :
    ∃ w', (run system program arguments timeout).run.run w =
      (.error (.breakdown beyondClock), w') := by
  obtain ⟨time, p, t, hstart, rfl⟩ := h
  rw [run, run_bind_of_ok (start_run_of_ok hstart), run_bind_of_ok (run_getThe _), hlate]
  exact ⟨_, rfl⟩

theorem of_run_breakdown {message : String}
    (h : (run system program arguments timeout).run.run w = (.error (.breakdown message), w')) :
    message = beyondClock ∧ Starts system program arguments w.files w.clock w'.clock ∧
      deadline? w'.clock timeout = none := by
  rcases hstart : (system.start program arguments w.clock).run w.files with
    ⟨⟨time, fault | p⟩, t⟩
  · obtain ⟨u, hu⟩ := start_run_of_error hstart
    rw [run, run_bind_of_error hu] at h
    cases h
  · rw [run, run_bind_of_ok (start_run_of_ok hstart), run_bind_of_ok (run_getThe _)] at h
    dsimp only at h
    cases hd : deadline? (w.clock + time) timeout with
    | none =>
      rw [hd] at h
      cases h
      exact ⟨rfl, ⟨time, p, t, hstart, rfl⟩, hd⟩
    | some deadline =>
      rw [hd] at h
      dsimp only at h
      rw [run_bind_of_ok (run_set _ _)] at h
      split at h
      · cases h
      · exact absurd rfl (logged_calm _ _ _ _ h message)

section Press

def printed (arguments : List String) : List UInt8 :=
  if arguments.contains "-spirv" then bytesOfWord spirvMagic else [68, 88, 66, 67]

/-- A system on which every program is the same script: it prints to its sixth argument, and that is
all. -/
def press : System where
  Process := List String
  start program arguments _ t :=
    match t.lookup program with
    | .ok (.file _ true) => ((0, .ok arguments), t)
    | .ok _ => ((0, .error FileFault.denied.message), t)
    | .error f => ((0, .error f.message), t)
  poll arguments _ t :=
    (.ok (some ⟨.exited 0, "", ""⟩),
      (t.write (arguments.getD 5 "") (printed arguments)).toOption.getD t)
  kill _ _ t := ((), t)

theorem press_starts {bytes : List UInt8} {t : FileTree}
    (h : t.lookup program = .ok (.file bytes true)) (now : Nat) :
    (press.start program arguments now).run t = ((0, .ok arguments), t) := by
  simp [press, StateT.run, h]

/-- The script is done at the first look, and its output can be read. -/
theorem press_run {bytes old : List UInt8} {output : String}
    (hprogram : w.files.lookup program = .ok (.file bytes true))
    (hout : arguments[5]? = some output)
    (hold : w.files.read output = .ok old) (htime : (deadline? w.clock timeout).isSome) :
    ∃ t, (run press program arguments timeout).run.run w =
        (.ok ⟨.exited 0, "", ""⟩, { w with files := t }) ∧
      w.files.Touches (· = FileTree.place w.files.home output) t ∧
      t.read output = .ok (printed arguments) := by
  obtain ⟨t, ht⟩ := FileTree.write_of_read (printed arguments) hold
  have hpoll : (press.poll arguments (w.clock + 0)).run w.files =
      (.ok (some ⟨.exited 0, "", ""⟩), t) := by
    show (_, (w.files.write (arguments.getD 5 "") _).toOption.getD w.files) = _
    rw [List.getD_eq_getElem?_getD, hout, Option.getD_some, ht]
    rfl
  exact ⟨t, run_of_ended (press_starts hprogram w.clock) htime hpoll, FileTree.write_touches ht⟩

end Press

end ShaderBuild.Launch
