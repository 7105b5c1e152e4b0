import DoctestSelection.Output
import DoctestSelection.Proofs.Text.Pieces

/-!
# What commands write

A command writes its report when all of it is there.  So what comes of the steps of a command is what
the command finds out, and what has been written afterwards ends in the whole report or is what had
been written before.

The lines of a report are written one after the other; the induction is on the lines, for any text
that has been written before them.

## Main definitions

* `Writing.reported` — what comes of a report, and what has been written after it.

## Main results

* `Writing.after_found` — steps that write a report if one is found out.
* `Report.after_write` — a report is written as its text.
* `Command.after_writeParse`, `Command.after_writeSelect`, `Command.after_writeRun` — **a command
  writes all of its report or nothing.**
-/

namespace DoctestSelection

/-! ### Lines -/

namespace Writing

variable {α β : Type} {written : String}

/-- Steps that follow steps that succeed. -/
theorem after_bind_of_ok {steps : Writing α} {a : α} {written' : String}
    (h : steps.after written = (.ok a, written')) (next : α → Writing β) :
    (steps >>= next).after written = (next a).after written' := by
  have hrun : StateT.run (ExceptT.run steps) written = (.ok a, written') := h
  show StateT.run (ExceptT.run (steps >>= next)) written = _
  rw [ExceptT.run_bind, StateT.run_bind, hrun]
  rfl

theorem after_writeLine (line written : String) :
    (writeLine line).after written = (.ok (), written ++ (line ++ "\n")) := rfl

theorem after_forM_writeLine (lines : List String) (written : String) :
    Writing.after (lines.forM writeLine) written = (.ok (), written ++ unlines lines) := by
  induction lines generalizing written with
  | nil =>
    show (Except.ok (), written) = _
    rw [unlines_nil, String.append_empty]
  | cons line lines ih =>
    show Writing.after (writeLine line >>= fun _ => lines.forM writeLine) written = _
    rw [after_bind_of_ok (after_writeLine line written), ih, unlines_cons, String.append_assoc]

end Writing

theorem Report.after_write (r : Report) (format : OutputFormat) (written : String) :
    (r.write format).after written = (.ok (), written ++ r.render format) := by
  cases format with
  | json => rw [write, Writing.after_writeLine, render, unlines_singleton]
  | text => exact Writing.after_forM_writeLine r.lines written

/-! ### What is found out -/

namespace Writing

variable {α β : Type} {written : String}

/-- What comes of a command that writes its report, if it finds one out, and what has been written
after it. -/
def reported (outcome : Except Failure Report) (conclude : Report → α) (format : OutputFormat)
    (written : String) : Except Failure α × String :=
  match outcome with
  | .ok report => (.ok (conclude report), written ++ report.render format)
  | .error e => (.error e, written)

variable {outcome : Except Failure Report} {conclude : Report → β} {format : OutputFormat}

theorem reported_eq_error_iff {e : Failure} :
    (reported outcome conclude format written).1 = .error e ↔ outcome = .error e := by
  cases outcome with
  | error e' => rw [reported, Except.error.injEq, Except.error.injEq]
  | ok report => exact iff_of_false nofun nofun

theorem reported_eq_ok_iff {b : β} :
    (reported outcome conclude format written).1 = .ok b ↔
      ∃ report, outcome = .ok report ∧ conclude report = b := by
  cases outcome with
  | error e => exact iff_of_false nofun fun h => nomatch h.choose_spec.1
  | ok report => simp only [reported, Except.ok.injEq, exists_eq_left']

theorem reported_of_error {e : Failure} (h : outcome = .error e) :
    reported outcome conclude format written = (.error e, written) := by
  rw [h, reported]

/-- Steps that write a report, if one is found out, and then come to a conclusion. -/
theorem after_found {next : Report → Writing β}
    (h : ∀ r, (next r).after written = (.ok (conclude r), written ++ r.render format)) :
    Writing.after (liftM outcome >>= next) written =
      reported outcome conclude format written := by
  cases outcome with
  | error e => rfl
  | ok report => exact h report

end Writing

/-! ### Commands -/

namespace Command

variable [PatternEngine] (settings : Settings) (source : TreeSource) (name? : Option String)
  (written : String)

theorem after_writeParse :
    (writeParse settings).after written =
      Writing.reported (parse settings) (fun _ => ()) settings.outputFormat.value written :=
  Writing.after_found fun report => report.after_write _ _

theorem after_writeSelect :
    (writeSelect settings source name?).after written =
      Writing.reported (select settings source name?) (fun _ => ())
        settings.outputFormat.value written :=
  Writing.after_found fun report => report.after_write _ _

theorem after_writeRun :
    (writeRun settings source name?).after written =
      Writing.reported (run settings source name?) Report.passed
        settings.outputFormat.value written :=
  Writing.after_found fun report => Writing.after_bind_of_ok (report.after_write _ _) _

end Command

end DoctestSelection
