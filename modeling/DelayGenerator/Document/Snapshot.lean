/-
This file holds the document that the browser front end shows and posts: a snapshot of the
instrument with all times in microseconds.
-/

import DelayGenerator.Document.Scalar
import DelayGenerator.Json.Printer

namespace DelayGenerator.Document

open Json (Decoder Error Field Layout)

/-- How many microseconds a second has. -/
def microsPerSecond : Binary64 := .ofInt 1000000

def toMicros (seconds : Binary64) : Binary64 := seconds * microsPerSecond

def toSeconds (micros : Binary64) : Binary64 := micros / microsPerSecond

def switchWord : Switch → String
  | .on => "on"
  | .off => "off"

def polarityWord : Polarity → String
  | .normal => "normal"
  | .inverted => "inverted"

/-- The document of one output. The polarity is given twice, as a word and as a checkbox. -/
def ofOutput (output : Output) : Json :=
  .record
    [("delay", .number (toMicros output.delay)),
      ("width", .number (toMicros output.width)),
      ("polarity", .text (polarityWord output.polarity)),
      ("inv", .text (if output.polarity.isInverted then "true" else "false")),
      ("state", .text (switchWord output.state))]

def ofSnapshot (snapshot : Snapshot) : Json :=
  .record
    [("idn", .text snapshot.identity.identification),
      ("inst_full", .text snapshot.identity.description),
      ("protocols", .record
        [("state", .text (switchWord snapshot.protocol.state)),
          ("interval", .number (toMicros snapshot.protocol.interval)),
          ("protocol", .list
            [.record
              [("index", .integer 0),
                ("pulses", .list (snapshot.protocol.outputs.toList.map ofOutput))]])])]

/-- The text of a snapshot. -/
def encode (snapshot : Snapshot) : String := (ofSnapshot snapshot).pretty

mutual

/-- The value as a reader sees it: a number that is not finite is `null`. -/
def readable : Json → Json
  | .number value => if value.isFinite then .number value else .null
  | .list items => .list (readableItems items)
  | .record members => .record (readableMembers members)
  | value => value

def readableItems : List Json → List Json
  | [] => []
  | item :: rest => readable item :: readableItems rest

def readableMembers : List (String × Json) → List (String × Json)
  | [] => []
  | (name, value) :: rest => (name, readable value) :: readableMembers rest

end

/-- The value of a snapshot, with the members of its records sorted. -/
def encodeValue (snapshot : Snapshot) : Json := (readable (ofSnapshot snapshot)).sorted

/-- A pulse as a form gives it. -/
structure PulseForm where
  delay : Option Binary64
  width : Option Binary64
  polarity : Option Polarity
  inverted : Option Polarity
  state : Option Switch

def pulseLayout : Layout PulseForm where
  name := "PulseIn"
  blank := ⟨none, none, none, none, none⟩
  fields :=
    [.of "delay" (field time) fun value form => { form with delay := value },
      .of "width" (field time) fun value form => { form with width := value },
      .of "polarity" (field polarity) fun value form => { form with polarity := value },
      .of "inv" (field polarity) fun value form => { form with inverted := value },
      .of "state" (field switch) fun value form => { form with state := value }]

/-- A list of pulses under an index. -/
structure EntryForm where
  index : Option Int
  pulses : List PulseForm

def entryLayout : Layout EntryForm where
  name := "ProtocolIn"
  blank := ⟨none, []⟩
  fields :=
    [.of "index" (field index) fun value form => { form with index := value },
      .of "pulses" pulseLayout.decoder.list fun value form => { form with pulses := value }]

structure ProtocolForm where
  state : Option Switch
  interval : Option Binary64
  entries : List EntryForm

def protocolLayout : Layout ProtocolForm where
  name := "ProtocolsIn"
  blank := ⟨none, none, []⟩
  fields :=
    [.of "state" (field switch) fun value form => { form with state := value },
      .of "interval" (field time) fun value form => { form with interval := value },
      .of "protocol" entryLayout.decoder.list fun value form => { form with entries := value }]

structure SnapshotForm where
  identification : String
  description : String
  protocol : ProtocolForm

def snapshotLayout : Layout SnapshotForm where
  name := "SnapshotIn"
  blank := ⟨"", "", protocolLayout.blank⟩
  fields :=
    [.of "idn" .text fun value form => { form with identification := value },
      .of "inst_full" .text fun value form => { form with description := value },
      .required (.of "protocols" protocolLayout.decoder fun value form =>
        { form with protocol := value })]

/-- The output that a pulse describes. -/
def PulseForm.output (form : PulseForm) : Output where
  delay := toSeconds (form.delay.getD (Binary64.zero false))
  width := toSeconds (form.width.getD (Binary64.zero false))
  polarity := (form.polarity <|> form.inverted).getD .normal
  state := form.state.getD .off

/-- The entry that describes the outputs: the first with index zero or none, else the first. -/
def ProtocolForm.selected? (form : ProtocolForm) : Option EntryForm :=
  (form.entries.find? fun entry => entry.index.getD 0 == 0) <|> form.entries.head?

/-- The output at an index: that of the pulse at this index of the selected entry. -/
def ProtocolForm.output (form : ProtocolForm) (index : Nat) : Output :=
  match form.selected? with
  | none => Output.idle
  | some entry => (entry.pulses[index]?.map PulseForm.output).getD Output.idle

def ProtocolForm.protocol (form : ProtocolForm) : Protocol where
  outputs := Vector.ofFn fun index => form.output index.val
  state := form.state.getD .off
  interval := (form.interval.map toSeconds).getD Protocol.defaultInterval

def SnapshotForm.snapshot (form : SnapshotForm) : Snapshot :=
  ⟨⟨form.identification, form.description⟩, form.protocol.protocol⟩

/-- Reads a snapshot from a text. -/
def decode (text : String) : Except Error Snapshot := do
  .ok (← snapshotLayout.decoder.decodeText text).snapshot

/-- Reads a snapshot from a value. -/
def decodeValue (value : Json) : Except Error Snapshot := do
  .ok (← snapshotLayout.decoder.decodeValue value).snapshot

end DelayGenerator.Document
