import KeyedRecords.Session.Event

/-!
# Scripted handlers

A scripted handler runs a list of acts for each event. Its log and the number of its calls are kept
in a state of the application.
-/

namespace KeyedRecords

/-- One act of a scripted handler. -/
inductive HandlerAct where
  /-- Goes on only for events of one model. -/
  | only (model : String)
  /-- Writes the event down. -/
  | log
  /-- Sets a field of all records. -/
  | set (field : String) (value : Value)
  /-- Removes a field from all records. -/
  | unset (field : String)
  /-- Takes the blanks at both ends of a text field away, in all records. -/
  | trim (field : String)
  | fail (message : String)
  /-- Fails if this is the first call of the handler. -/
  | failOnce (message : String)

/-- An event that was written down. -/
structure LogEntry where
  event : CommitEvent
  /-- Its instances at that time. -/
  instances : List EventInstance

/-- The log and the numbers of calls of scripted handlers. -/
structure HandlerLog where
  /-- The events that were written down. -/
  entries : List LogEntry
  /-- How often each handler was called. -/
  calls : List Nat

namespace HandlerLog

/-- Nothing written down, and no handlers. -/
def empty : HandlerLog := ⟨[], []⟩

/-- The number of a new handler. -/
def newHandler (h : HandlerLog) : Nat × HandlerLog :=
  (h.calls.length, { h with calls := h.calls ++ [0] })

end HandlerLog

namespace HandlerScript

/-- What a scripted handler works on. -/
abbrev Acting (α : Type) := ExceptT Error (StateM (List EventInstance × HandlerLog)) α

/-- Changes the records of all instances in turn; an error leaves the rest as it is. -/
def editRecords (f : Record → Except Error Record) :
    List EventInstance → Except Error Unit × List EventInstance
  | [] => (.ok (), [])
  | i :: rest =>
    match f i.record with
    | .error e => (.error e, i :: rest)
    | .ok record =>
      let (result, rest) := editRecords f rest
      (result, { i with record } :: rest)

/-- Changes the records of all instances. -/
def edit (f : Record → Except Error Record) : Acting Unit := do
  let (instances, h) ← get
  let (result, instances) := editRecords f instances
  set (instances, h)
  ExceptT.mk (pure result)

/-- The record with a text field trimmed. -/
def trimField (field : String) (r : Record) : Except Error Record := do
  match ← r.read field .text with
  | .text s => return r.set field (.text (Text.trim s))
  | _ => return r

/-- Writes an event down. -/
def write (event : CommitEvent) : Acting Unit :=
  modify fun (instances, h) => (instances, { h with entries := h.entries ++ [⟨event, instances⟩] })

/-- Runs acts in order; `firstCall` says whether the handler has not been called before. -/
def runAll (firstCall : Bool) (event : CommitEvent) : List HandlerAct → Acting Unit
  | [] => pure ()
  | act :: rest => do
    match act with
    -- for other models the script ends here, without an error
    | .only model => if event.layout.name = model then runAll firstCall event rest
    | .log =>
      write event
      runAll firstCall event rest
    | .set field value =>
      edit fun r => .ok (r.set field value)
      runAll firstCall event rest
    | .unset field =>
      edit fun r => .ok (r.erase field)
      runAll firstCall event rest
    | .trim field =>
      edit (trimField field)
      runAll firstCall event rest
    | .fail message => throw (.custom message)
    | .failOnce message =>
      if firstCall then throw (.custom message) else runAll firstCall event rest

end HandlerScript

/-- The handler of a number that runs acts. -/
def scriptedHandler (number : Nat) (acts : List HandlerAct) : Handler HandlerLog := fun event => do
  let (instances, h) ← get
  let calls := (h.calls[number]?).getD 0
  set (instances, { h with calls := h.calls.set number (calls + 1) })
  HandlerScript.runAll (calls == 0) event acts

/-- A handler on a part of the state of the application. -/
def Handler.on {σ τ : Type} (part : σ → τ) (replace : τ → σ → σ) (handler : Handler τ) :
    Handler σ := fun event =>
  ExceptT.mk fun (instances, app) =>
    match (ExceptT.run (handler event)).run (instances, part app) with
    | (result, (instances, t)) => (result, (instances, replace t app))

end KeyedRecords
