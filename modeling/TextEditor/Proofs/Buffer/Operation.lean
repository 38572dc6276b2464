import TextEditor.Buffer.Transaction
import TextEditor.Proofs.Buffer.Commands
import TextEditor.Proofs.Step

/-!
# Operations of a caller

A caller uses a buffer through commands and through transactions.  The body of a transaction is a
routine: any commands, among them further transactions, in any order, with the clipboard and the
layout of the screen changing underneath, until the routine is done or raises something of its own.
A command that fails is left at that; a routine that passes the failure on raises it.  A caller's
use of a buffer is any list of operations.
-/

namespace TextEditor

/-- What a caller does inside a transaction. -/
inductive Routine where
  | done
  | raise (fault : Fault)
  | rehost (host : Host) (next : Routine)
  | perform (command : Command) (next : Routine)
  | transaction (label : String) (body next : Routine)

/-- What a caller does with a buffer. -/
inductive Operation where
  /-- The clipboard changed, or the layout of the screen. -/
  | rehost (host : Host)
  | perform (command : Command)
  | transaction (label : String) (body : Routine)

namespace Routine

/-- The routine as a step on buffer and host. -/
def step : Routine → Step Desk Unit
  | .done => pure ()
  | .raise fault => throw fault
  | .rehost host next => do
    modify fun d => { d with host }
    next.step
  | .perform command next => do
    let _ ← Step.attempt (Desk.commanded command)
    next.step
  | .transaction label body next => do
    let _ ← Step.attempt (Desk.transaction label body.step)
    next.step

/-- The routine raises nothing, and neither undoes nor redoes. -/
def Steady : Routine → Prop
  | .done => True
  | .raise _ => False
  | .rehost _ next => next.Steady
  | .perform command next => command.isReplay = false ∧ next.Steady
  | .transaction _ body next => body.Steady ∧ next.Steady

/-- The routine neither undoes nor redoes; it may raise something. -/
def calm : Routine → Bool
  | .done | .raise _ => true
  | .rehost _ next => next.calm
  | .perform command next => !command.isReplay && next.calm
  | .transaction _ body next => body.calm && next.calm

theorem Steady.calm {routine : Routine} (h : routine.Steady) : routine.calm = true := by
  induction routine with
  | done => rfl
  | raise fault => exact h.elim
  | rehost host next ih => exact ih h
  | perform command next ih => simp [Routine.calm, h.1, ih h.2]
  | transaction label body next ihbody ihnext => simp [Routine.calm, ihbody h.1, ihnext h.2]

end Routine

namespace Operation

/-- The operation as a step on buffer and host. -/
def step : Operation → Step Desk Unit
  | .rehost host => modify fun d => { d with host }
  | .perform command => do let _ ← Desk.commanded command
  | .transaction label body => Desk.transaction label body.step

/-- Neither is a transaction given up, nor is anything undone or redone inside one. -/
def Steady : Operation → Prop
  | .rehost _ | .perform _ => True
  | .transaction _ body => body.Steady

def isReplay : Operation → Bool
  | .perform command => command.isReplay
  | _ => false

end Operation

namespace Desk

/-- Buffer and host after an operation, whether it fails or not. -/
def operate (d : Desk) (operation : Operation) : Desk :=
  (operation.step.start d).2

/-! ## Routines, evaluated -/

theorem start_transaction (label : String) (body : Step Desk Unit) (d : Desk) :
    (transaction label body).start d =
      if d.buffer.grouping.isSome then body.start d
      else
        match body.start (d.onBuffer (·.beginGroup label)) with
        | (.ok (), d') => (.ok (), d'.onBuffer Buffer.endGroup)
        | (.error fault, d') => (.error fault, d'.onBuffer (·.abandonGroup fault.reported)) := by
  rw [transaction, Step.start_bind]
  simp only [Step.start_get]
  split
  · rfl
  · rw [Step.start_bind, alter, Step.start_modify]
    simp only [Step.start_bind, Step.start_attempt]
    rcases body.start (d.onBuffer (·.beginGroup label)) with ⟨outcome, d'⟩
    cases outcome <;> rfl

theorem start_perform (command : Command) (next : Routine) (d : Desk) :
    (Routine.perform command next).step.start d = next.step.start (d.perform command).2 := by
  rw [Routine.step, Step.start_bind, Step.start_attempt]
  rfl

theorem start_nested (label : String) (body next : Routine) (d : Desk) :
    (Routine.transaction label body next).step.start d =
      next.step.start ((transaction label body.step).start d).2 := by
  rw [Routine.step, Step.start_bind, Step.start_attempt]

theorem operate_perform (d : Desk) (command : Command) :
    d.operate (.perform command) = (d.perform command).2 := by
  rw [operate, Operation.step, Step.start_bind, commanded, Step.start_ofRun]
  rcases d.perform command with ⟨outcome, d'⟩
  cases outcome <;> rfl

/-! ## What a follower hears -/

theorem relays_transaction {label : String} {body : Step Desk Unit}
    (h : ∀ d : Desk, d.buffer.Relays (body.start d).2.buffer) (d : Desk) :
    d.buffer.Relays ((transaction label body).start d).2.buffer := by
  rw [start_transaction]
  split
  · exact h d
  · have hbegin : d.buffer.Relays (d.onBuffer (·.beginGroup label)).buffer :=
      (Buffer.rests_beginGroup d.buffer label).relays
    have hbody := h (d.onBuffer (·.beginGroup label))
    generalize body.start (d.onBuffer (·.beginGroup label)) = result at hbody ⊢
    obtain ⟨outcome, d'⟩ := result
    apply (hbegin.trans hbody).trans
    cases outcome with
    | ok => exact (Buffer.rests_endGroup d'.buffer).relays
    | error fault => exact (Buffer.rests_abandonGroup d'.buffer _).relays

theorem relays_routine (routine : Routine) (d : Desk) :
    d.buffer.Relays (routine.step.start d).2.buffer := by
  induction routine generalizing d with
  | done | raise => exact Buffer.Relays.refl _
  | rehost host next ih => exact ih { d with host }
  | perform command next ih =>
    rw [start_perform]
    exact (relays_perform d command).trans (ih _)
  | transaction label body next ihbody ihnext =>
    rw [start_nested]
    exact (relays_transaction ihbody d).trans (ihnext _)

/-- A follower hears of everything that an operation does to the text. -/
theorem relays_operate (d : Desk) (operation : Operation) :
    d.buffer.Relays (d.operate operation).buffer := by
  cases operation with
  | rehost host => exact Buffer.Relays.refl _
  | perform command =>
    rw [operate_perform]
    exact relays_perform d command
  | transaction label body => exact relays_transaction (relays_routine body) d

/-! ## What can be taken back -/

/-- Inside a group the group takes up the edits of a calm routine, also of one that fails. -/
theorem undoable_routine {routine : Routine} (h : routine.calm = true) {d : Desk}
    (hgroup : d.buffer.grouping.isSome) : d.buffer.Undoable (routine.step.start d).2.buffer := by
  induction routine generalizing d with
  | done | raise => exact (Buffer.Quiet.refl _).undoable
  | rehost host next ih => exact ih h (d := { d with host }) hgroup
  | perform command next ih =>
    obtain ⟨hreplay, hcalm⟩ := Bool.and_eq_true_iff.1 h
    rw [start_perform]
    have hcommand := undoable_perform d (by simpa using hreplay)
    exact hcommand.trans hgroup (ih hcalm (hcommand.isSome_grouping hgroup))
  | transaction label body next ihbody ihnext =>
    obtain ⟨hbodyCalm, hnextCalm⟩ := Bool.and_eq_true_iff.1 h
    rw [start_nested, start_transaction, if_pos hgroup]
    have hbody := ihbody hbodyCalm hgroup
    exact hbody.trans hgroup (ihnext hnextCalm (hbody.isSome_grouping hgroup))

/-- A steady routine is done without failing. -/
theorem ok_routine {routine : Routine} (h : routine.Steady) (d : Desk) :
    (routine.step.start d).1 = .ok () := by
  induction routine generalizing d with
  | done => rfl
  | raise fault => exact h.elim
  | rehost host next ih => exact ih h { d with host }
  | perform command next ih =>
    rw [start_perform]
    exact ih h.2 _
  | transaction label body next ihbody ihnext =>
    rw [start_nested]
    exact ihnext h.2 _

theorem ok_transaction (label : String) {body : Routine} (h : body.Steady) (d : Desk) :
    ((transaction label body.step).start d).1 = .ok () := by
  rw [start_transaction]
  split
  · exact ok_routine h d
  · have hok := ok_routine h (d.onBuffer (·.beginGroup label))
    generalize body.step.start (d.onBuffer (·.beginGroup label)) = result at hok ⊢
    obtain ⟨outcome, d'⟩ := result
    obtain rfl : outcome = .ok () := hok
    rfl

/-- Whatever a calm transaction does to the text can be taken back if it does not fail. -/
theorem undoable_transaction (label : String) {body : Routine} (h : body.calm = true) {d : Desk}
    (hok : ((transaction label body.step).start d).1 = .ok ()) :
    d.buffer.Undoable ((transaction label body.step).start d).2.buffer := by
  have hgrouped : d.buffer.Undoable
      (d.buffer.grouped label fun b => (body.step.start { d with buffer := b }).2.buffer) :=
    Buffer.undoable_grouped d.buffer label
      fun c _ hgroup => undoable_routine h (d := { d with buffer := c }) hgroup
  rw [start_transaction] at hok ⊢
  unfold Buffer.grouped at hgrouped
  cases hgroup : d.buffer.grouping with
  | some group =>
    rw [hgroup] at hgrouped
    exact hgrouped
  | none =>
    rw [hgroup] at hgrouped hok
    simp only [Option.isSome_none, Bool.false_eq_true, if_false] at hok ⊢
    change d.buffer.Undoable
      (body.step.start (d.onBuffer (·.beginGroup label))).2.buffer.endGroup at hgrouped
    generalize body.step.start (d.onBuffer (·.beginGroup label)) = result at hok hgrouped ⊢
    obtain ⟨outcome, d'⟩ := result
    cases outcome with
    | ok => exact hgrouped
    | error fault => cases hok

/-- Whatever a steady operation does to the text can be taken back. -/
theorem undoable_operate {operation : Operation} (hsteady : operation.Steady)
    (hreplay : operation.isReplay = false) (d : Desk) :
    d.buffer.Undoable (d.operate operation).buffer := by
  cases operation with
  | rehost host => exact (Buffer.Quiet.refl _).undoable
  | perform command =>
    rw [operate_perform]
    exact undoable_perform d hreplay
  | transaction label body =>
    exact undoable_transaction label hsteady.calm (ok_transaction label hsteady d)

end Desk

end TextEditor
