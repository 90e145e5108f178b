import Codrik.Encoding.JsonReading
import Codrik.Files.Volume
import Codrik.Runtime.Ipc.RequestFrames
import Codrik.Transition.System

/-! What the command line keeps of its requests (`interfaces/request_metadata.rs`): one file for
each request, which any number of processes load and replace under a lock. Reads and writes may
fail, processes may be killed, and the power may be lost at any point.
-/

namespace Codrik.Interfaces

open Codrik.Encoding
open Codrik.Files
open Codrik.Runtime
open Codrik.Runtime.Ipc
open Codrik.Transition

-----------------------------------------------------------------------------------------
-- Records
-----------------------------------------------------------------------------------------

inductive RequestMetadataState
  | created
  | sentUnconfirmed
  | accepted
  | terminal
deriving DecidableEq

namespace RequestMetadataState

/-- The order the states are declared in. -/
def rank : RequestMetadataState → Nat
  | .created => 0
  | .sentUnconfirmed => 1
  | .accepted => 2
  | .terminal => 3

theorem rank_injective : Function.Injective rank := by
  intro a b same
  cases a <;> cases b <;> first | rfl | cases same

instance : LinearOrder RequestMetadataState := LinearOrder.lift' rank rank_injective

def text : RequestMetadataState → String
  | .created => "created"
  | .sentUnconfirmed => "sent_unconfirmed"
  | .accepted => "accepted"
  | .terminal => "terminal"

def ofText : String → Option RequestMetadataState
  | "created" => some .created
  | "sent_unconfirmed" => some .sentUnconfirmed
  | "accepted" => some .accepted
  | "terminal" => some .terminal
  | _ => none

/-- The debug format. -/
def debug : RequestMetadataState → String
  | .created => "Created"
  | .sentUnconfirmed => "SentUnconfirmed"
  | .accepted => "Accepted"
  | .terminal => "Terminal"

theorem ofText_text (state : RequestMetadataState) : ofText state.text = some state := by
  cases state <;> rfl

end RequestMetadataState

structure RequestMetadata where
  requestId : RequestId
  createdAt : Timestamp
  promptSha256 : String
  state : RequestMetadataState
deriving DecidableEq

namespace RequestMetadata

variable {m m' m'' : RequestMetadata}

/-- The other record is of the same request and prompt, and not before this one. -/
structure Precedes (m m' : RequestMetadata) : Prop where
  requestId : m'.requestId = m.requestId
  createdAt : m'.createdAt = m.createdAt
  promptSha256 : m'.promptSha256 = m.promptSha256
  state : m.state ≤ m'.state

theorem Precedes.refl (m : RequestMetadata) : m.Precedes m := ⟨rfl, rfl, rfl, le_refl _⟩

theorem Precedes.trans (first : m.Precedes m') (second : m'.Precedes m'') : m.Precedes m'' :=
  ⟨second.requestId.trans first.requestId, second.createdAt.trans first.createdAt,
    second.promptSha256.trans first.promptSha256, le_trans first.state second.state⟩

/-- The numbers of the record fit their types. -/
structure Encodable (m : RequestMetadata) : Prop where
  requestId : m.requestId.number < 2 ^ 128
  createdAt : -(2 ^ 63) ≤ m.createdAt ∧ m.createdAt < 2 ^ 63

def toJson (m : RequestMetadata) : Json :=
  .obj [("request_id", idJson m.requestId), ("created_at", .num m.createdAt),
    ("prompt_sha256", .str m.promptSha256), ("state", .str m.state.text)]

def asI64 : Json → Option Int
  | .num n => if -(2 ^ 63) ≤ n ∧ n < 2 ^ 63 then some n else none
  | _ => none

def asState (value : Json) : Option RequestMetadataState :=
  asText value >>= RequestMetadataState.ofText

/-- `Deserialize for RequestMetadata`, of objects with canonical UUIDs -/
def ofJson (value : Json) : Option RequestMetadata := do
  guard (onlyMembers ["request_id", "created_at", "prompt_sha256", "state"] value)
  some {
    requestId := ← read value "request_id" (asId .request)
    createdAt := ← read value "created_at" asI64
    promptSha256 := ← read value "prompt_sha256" asText
    state := ← read value "state" asState }

/-- The text of a record and a line feed. -/
def encode (m : RequestMetadata) : List UInt8 := utf8 (m.toJson.render ++ ['\n'])

/-- `serde_json::from_reader` -/
def decode (bytes : List UInt8) : Option RequestMetadata := do
  let text ← fromUtf8 bytes
  ofJson (← Json.read text.toList)

theorem ofJson_toJson (encodable : m.Encodable) : ofJson m.toJson = some m := by
  have members : onlyMembers ["request_id", "created_at", "prompt_sha256", "state"] m.toJson
      = true := by simp [onlyMembers, toJson]
  have id : m.toJson.member "request_id" = some (idJson m.requestId) := by
    simp [toJson, Json.member]
  have time : m.toJson.member "created_at" = some (.num m.createdAt) := by
    simp [toJson, Json.member]
  have prompt : m.toJson.member "prompt_sha256" = some (.str m.promptSha256) := by
    simp [toJson, Json.member]
  have state : m.toJson.member "state" = some (.str m.state.text) := by
    simp [toJson, Json.member]
  have inRange : asI64 (.num m.createdAt) = some m.createdAt := if_pos encodable.createdAt
  simp [ofJson, Ipc.read, members, id, time, prompt, state, asId_idJson encodable.requestId,
    inRange, asText, asState, RequestMetadataState.ofText_text]

/-- A record is read back from its bytes. -/
theorem decode_encode (encodable : m.Encodable) : decode m.encode = some m := by
  have text : fromUtf8 m.encode = some (String.ofList (m.toJson.render ++ ['\n'])) := by
    have whole := fromUtf8_utf8 (String.ofList (m.toJson.render ++ ['\n']))
    rwa [String.toList_ofList] at whole
  have numeric : m.toJson.Numeric := ⟨trivial, trivial, trivial, trivial, trivial⟩
  have value : Json.read (m.toJson.render ++ ['\n']) = some m.toJson := by
    apply Json.read_render_blanks numeric
    intro c mem
    obtain rfl := List.mem_singleton.mp mem
    rfl
  simp [decode, text, value, ofJson_toJson encodable]

end RequestMetadata

-----------------------------------------------------------------------------------------
-- Calls
-----------------------------------------------------------------------------------------

namespace RequestMetadataStore

/-- The public functions of the store. -/
inductive Command
  | create (createdAt : Timestamp) (prompt : String)
  | setState (state : RequestMetadataState)
  | setStateIfPresent (state : RequestMetadataState)
  | load
deriving DecidableEq

/-- How a call ended: with an error, with what `load` found, with the record that `create` found,
with no record, or with a record that was written.
-/
inductive Outcome
  | failed (error : String)
  | loaded (found : Option RequestMetadata)
  | present (found : RequestMetadata)
  | absent
  | wrote (written : RequestMetadata)
deriving DecidableEq

inductive Decision
  | finish (outcome : Outcome)
  | write (m : RequestMetadata)

/-- `load`, of what the name of the record stands for -/
def load (request : RequestId) : Option Blob → Except String (Option RequestMetadata)
  | none => .ok none
  | some file =>
      match RequestMetadata.decode file.bytes with
      | none => .error "failed to decode metadata"
      | some decoded =>
          if decoded.requestId ≠ request then
            .error "request metadata ID does not match its file name"
          else
            .ok (some decoded)

/-- The check of `set_state`. -/
def advance (state : RequestMetadataState) (m : RequestMetadata) : Decision :=
  if state < m.state then
    .finish (.failed
      s!"request metadata state cannot move backward from {m.state.debug} to {state.debug}")
  else
    .write { m with state := state }

section Digest

variable (digest : String → String)

/-- What a call does with the record it has loaded. -/
def decide (request : RequestId) (found : Option RequestMetadata) : Command → Decision
  | .create createdAt prompt =>
      match found with
      | some existing =>
          if existing.promptSha256 ≠ digest prompt then
            .finish (.failed
              "request recovery metadata already exists with a different prompt hash")
          else
            .finish (.present existing)
      | none => .write ⟨request, createdAt, digest prompt, .created⟩
  | .setState state =>
      match found with
      | none =>
          .finish (.failed
            s!"request recovery metadata is missing for {uuidText request.number}")
      | some m => advance state m
  | .setStateIfPresent state =>
      match found with
      | none => .finish .absent
      | some m => advance state m
  | .load => .finish (.loaded found)

-----------------------------------------------------------------------------------------
-- Processes and the disk
-----------------------------------------------------------------------------------------

/-- The names in the directory, less the lock files. -/
inductive Name
  | record (request : RequestId)
  | temporary (request : RequestId) (token : Nat)
deriving DecidableEq

/-- How far a call is: waiting for the lock, about to load the record, about to create its
temporary file, with bytes left to write, with the file synced, with the file renamed, or about to
remove it after an error.
-/
inductive Stage
  | locking
  | loading
  | creating (m : RequestMetadata)
  | filling (m : RequestMetadata) (token : Nat) (left : List UInt8)
  | synced (m : RequestMetadata) (token : Nat)
  | renamed (m : RequestMetadata)
  | removing (token : Nat) (error : String)
deriving DecidableEq

structure Call where
  request : RequestId
  command : Command
  stage : Stage
deriving DecidableEq

/-- `load` takes no lock. -/
def Call.new (request : RequestId) (command : Command) : Call :=
  ⟨request, command, if command = .load then .loading else .locking⟩

def Call.Holds (call : Call) : Prop := call.command ≠ .load ∧ call.stage ≠ .locking

/-- The temporary file the call has created and not renamed. -/
def Stage.token? : Stage → Option Nat
  | .filling _ token _ | .synced _ token | .removing token _ => some token
  | _ => none

structure Entry where
  request : RequestId
  outcome : Outcome
deriving DecidableEq

/-- The disk, the calls in progress, the calls that were made and those that have ended. -/
structure World where
  volume : Volume Name
  calls : Nat → Option Call
  tokens : Nat
  asked : List (RequestId × Command)
  log : List Entry

def World.set (w : World) (i : Nat) (call : Option Call) : World :=
  { w with calls := fun j => if j = i then call else w.calls j }

def World.goes (w : World) (i : Nat) (call : Call) (stage : Stage) : World :=
  w.set i (some { call with stage := stage })

/-- The call ends, which releases its lock. -/
def World.ends (w : World) (i : Nat) (call : Call) (outcome : Outcome) : World :=
  { w.set i none with log := w.log ++ [⟨call.request, outcome⟩] }

def World.stores (w : World) (volume : Volume Name) : World := { w with volume := volume }

def World.puts (w : World) (name : Name) (file : Option Blob) : World :=
  w.stores (w.volume.put name file)

inductive Act
  | start | work | fail | kill | powerLoss
deriving DecidableEq

/-- A call takes its next step. -/
inductive Works (w : World) (i : Nat) (call : Call) : World → Prop
  | locks (here : call.stage = .locking)
      (free : ∀ j other, w.calls j = some other → other.request = call.request → ¬ other.Holds)
    : Works w i call (w.goes i call .loading)
  | misreads {error} (here : call.stage = .loading)
      (found : load call.request (w.volume.entries (.record call.request)) = .error error)
    : Works w i call (w.ends i call (.failed error))
  | finishes {found outcome} (here : call.stage = .loading)
      (read : load call.request (w.volume.entries (.record call.request)) = .ok found)
      (decided : decide digest call.request found call.command = .finish outcome)
    : Works w i call (w.ends i call outcome)
  | writes {found m} (here : call.stage = .loading)
      (read : load call.request (w.volume.entries (.record call.request)) = .ok found)
      (decided : decide digest call.request found call.command = .write m)
    : Works w i call (w.goes i call (.creating m))
  -- `write_atomic`
  | creates {m} (here : call.stage = .creating m)
    : Works w i call
        { (w.puts (.temporary m.requestId w.tokens) (some ⟨[], false⟩)).goes i call
            (.filling m w.tokens m.encode) with tokens := w.tokens + 1 }
  | fills {m token chunk left file} (here : call.stage = .filling m token (chunk ++ left))
      (found : w.volume.entries (.temporary m.requestId token) = some file)
    : Works w i call
        ((w.puts (.temporary m.requestId token) (some ⟨file.bytes ++ chunk, false⟩)).goes i call
          (.filling m token left))
  | syncs {m token file} (here : call.stage = .filling m token [])
      (found : w.volume.entries (.temporary m.requestId token) = some file)
    : Works w i call
        ((w.puts (.temporary m.requestId token) (some { file with synced := true })).goes i call
          (.synced m token))
  | renames {m token} (here : call.stage = .synced m token)
    : Works w i call
        ((w.stores (w.volume.rename (.temporary m.requestId token) (.record m.requestId))).goes i
          call (.renamed m))
  | settles {m} (here : call.stage = .renamed m)
    : Works w i call ((w.stores w.volume.settle).ends i call (.wrote m))
  -- the error of `remove_file` is ignored
  | removes {token error} (here : call.stage = .removing token error) (gone : Bool)
    : Works w i call
        ((if gone then w.puts (.temporary call.request token) none else w).ends i call
          (.failed error))

inductive Step (w : World) : Act → World → Prop
  | starts {i request command} (idle : w.calls i = none) (uuid : request.number < 2 ^ 128)
      (time : ∀ createdAt prompt, command = .create createdAt prompt →
        -(2 ^ 63) ≤ createdAt ∧ createdAt < 2 ^ 63)
    : Step w .start
        { w.set i (some (.new request command)) with asked := w.asked ++ [(request, command)] }
  | works {i call w'} (here : w.calls i = some call) (works : Works digest w i call w')
    : Step w .work w'
  -- an error of the file system, or a file with other permissions than it should have
  | fails {i call} (here : w.calls i = some call) (error : String)
      (untouched : call.stage.token? = none)
    : Step w .fail (w.ends i call (.failed error))
  | failsWriting {i call token} (here : w.calls i = some call) (error : String)
      (touched : call.stage.token? = some token)
    : Step w .fail (w.goes i call (.removing token error))
  -- the process is killed
  | kills (i : Nat) : Step w .kill (w.set i none)
  | losesPower {volume} (lost : w.volume.Lost volume)
    : Step w .powerLoss { w with volume := volume, calls := fun _ => none }

/-- Any number of processes on a store that has no records yet. -/
def store : System World Act where
  Initial w := w.volume = .empty ∧ (∀ i, w.calls i = none) ∧ w.asked = [] ∧ w.log = []
  Step := Step digest

end Digest

-----------------------------------------------------------------------------------------
-- What the disk and the calls keep
-----------------------------------------------------------------------------------------

section Safety

variable {digest : String → String} {asked : List (RequestId × Command)} {log : List Entry}
  {w w' : World} {i j : Nat} {call other : Call} {act : Act} {request : RequestId}
  {m m' : RequestMetadata}

/-- The record that the outcome shows to its caller, if it shows what there is. -/
def Outcome.shown : Outcome → Option (Option RequestMetadata)
  | .failed _ => none
  | .loaded found => some found
  | .present found => some (some found)
  | .absent => some none
  | .wrote written => some (some written)

/-- A call made the record, and calls asked for its state. -/
def Made (digest : String → String) (asked : List (RequestId × Command)) (m : RequestMetadata)
    : Prop :=
  (∃ prompt, (m.requestId, .create m.createdAt prompt) ∈ asked ∧ m.promptSha256 = digest prompt)
    ∧ (m.state = .created ∨ (m.requestId, .setState m.state) ∈ asked
      ∨ (m.requestId, .setStateIfPresent m.state) ∈ asked)

/-- The calls that were made have ids and times of their types. -/
def Typed (asked : List (RequestId × Command)) : Prop :=
  ∀ made ∈ asked, made.1.number < 2 ^ 128 ∧ ∀ createdAt prompt, made.2 = .create createdAt prompt →
    -(2 ^ 63) ≤ createdAt ∧ createdAt < 2 ^ 63

/-- A whole record of the request, on the disk. -/
structure Whole (digest : String → String) (asked : List (RequestId × Command))
    (request : RequestId) (m : RequestMetadata) (file : Blob) : Prop where
  file : file = ⟨m.encode, true⟩
  requestId : m.requestId = request
  made : Made digest asked m
  encodable : m.Encodable

/-- A file of a record is whole, and not before a record that a call has reported as written. -/
def Fine (digest : String → String) (asked : List (RequestId × Command)) (log : List Entry)
    : Name → Option Blob → Prop
  | .record request, version =>
      (∀ file ∈ version, ∃ m, Whole digest asked request m file)
        ∧ ∀ entry ∈ log, entry.request = request → ∀ m, entry.outcome = .wrote m →
          ∃ m', version = some ⟨m'.encode, true⟩ ∧ m'.Encodable ∧ m.Precedes m'
  | .temporary _ _, _ => True

/-- The record a call is to write comes after the one that is there. -/
structure Next (digest : String → String) (w : World) (request : RequestId) (m : RequestMetadata)
    : Prop where
  requestId : m.requestId = request
  made : Made digest w.asked m
  encodable : m.Encodable
  after : ∀ old : RequestMetadata, old.Encodable →
    w.volume.entries (.record request) = some ⟨old.encode, true⟩ → old.Precedes m

/-- What is known of the files a call works with. -/
def Progress (digest : String → String) (w : World) (request : RequestId) : Stage → Prop
  | .locking | .loading | .removing _ _ => True
  | .creating m => Next digest w request m
  | .filling m token left => Next digest w request m
      ∧ ∃ file, w.volume.entries (.temporary request token) = some file
        ∧ file.bytes ++ left = m.encode
  | .synced m token => Next digest w request m
      ∧ w.volume.entries (.temporary request token) = some ⟨m.encode, true⟩
  | .renamed m => m.requestId = request ∧ m.Encodable
      ∧ w.volume.entries (.record request) = some ⟨m.encode, true⟩

/-- A call that writes is not `load`. -/
def Stage.Writing : Stage → Prop
  | .locking | .loading => False
  | _ => True

structure CallSound (digest : String → String) (w : World) (call : Call) : Prop where
  asked : (call.request, call.command) ∈ w.asked
  writing : call.stage.Writing → call.command ≠ .load
  tokens : ∀ token ∈ call.stage.token?, token < w.tokens
  progress : Progress digest w call.request call.stage

/-- A later call shows a record that is not before one reported as written. -/
def Sees (earlier later : Entry) : Prop :=
  earlier.request = later.request → ∀ m found, earlier.outcome = .wrote m →
    later.outcome.shown = some found → ∃ m' ∈ found, m.Precedes m'

structure Sound (digest : String → String) (w : World) : Prop where
  typed : Typed w.asked
  volume : w.volume.Holds (Fine digest w.asked w.log)
  calls : ∀ i call, w.calls i = some call → CallSound digest w call
  exclusive : ∀ i j call other, w.calls i = some call → w.calls j = some other →
    call.request = other.request → call.Holds → other.Holds → i = j
  tokens : ∀ i j call other token, w.calls i = some call → w.calls j = some other →
    token ∈ call.stage.token? → token ∈ other.stage.token? → i = j
  log : w.log.Pairwise Sees

/-- The name is one the call relies on. -/
def Call.Uses (call : Call) : Name → Prop
  | .record request => request = call.request ∧ call.Holds
  | .temporary request token => request = call.request ∧ token ∈ call.stage.token?

theorem set_same (w : World) (i : Nat) (call : Option Call) : (w.set i call).calls i = call :=
  if_pos rfl

theorem set_other {call : Option Call} (different : j ≠ i)
    : (w.set i call).calls j = w.calls j :=
  if_neg different

/-- A call after another one was set is that one or an old one. -/
theorem calls_set {call : Option Call} (here : (w.set i call).calls j = some other)
    : j = i ∧ call = some other ∨ j ≠ i ∧ w.calls j = some other := by
  rcases eq_or_ne j i with rfl | different
  · exact Or.inl ⟨rfl, (set_same w j call).symm.trans here⟩
  · exact Or.inr ⟨different, (set_other different).symm.trans here⟩

theorem CallSound.holds (sound : CallSound digest w call) (writing : call.stage.Writing)
    : call.Holds := by
  refine ⟨sound.writing writing, fun here => ?_⟩
  rw [here] at writing
  exact writing

/-- What is known of a call stays known while the files it uses stay. -/
theorem Progress.frame {stage : Stage} (progress : Progress digest w request stage)
    (asked : ∀ made ∈ w.asked, made ∈ w'.asked)
    (record : stage.Writing →
      w'.volume.entries (.record request) = w.volume.entries (.record request))
    (temporary : ∀ token ∈ stage.token?, w'.volume.entries (.temporary request token)
      = w.volume.entries (.temporary request token))
    : Progress digest w' request stage := by
  have next : ∀ {m}, stage.Writing → Next digest w request m → Next digest w' request m := by
    intro m writing next
    refine ⟨next.requestId, ?_, next.encodable, ?_⟩
    · obtain ⟨⟨prompt, created, hash⟩, state⟩ := next.made
      exact ⟨⟨prompt, asked _ created, hash⟩,
        state.imp_right (fun known => known.imp (asked _) (asked _))⟩
    · rw [record writing]
      exact next.after
  cases stage with
  | locking => trivial
  | loading => trivial
  | removing token error => trivial
  | creating m => exact next trivial progress
  | filling m token left =>
      refine ⟨next trivial progress.1, ?_⟩
      rw [temporary token rfl]
      exact progress.2
  | synced m token =>
      refine ⟨next trivial progress.1, ?_⟩
      rw [temporary token rfl]
      exact progress.2
  | renamed m =>
      refine ⟨progress.1, progress.2.1, ?_⟩
      rw [record trivial]
      exact progress.2.2

/-- Other calls do not notice what happens to files they do not use. -/
theorem CallSound.frame (sound : CallSound digest w call)
    (asked : ∀ made ∈ w.asked, made ∈ w'.asked) (tokens : w.tokens ≤ w'.tokens)
    (files : ∀ name, call.Uses name → w'.volume.entries name = w.volume.entries name)
    : CallSound digest w' call where
  asked := asked _ sound.asked
  writing := sound.writing
  tokens token mem := lt_of_lt_of_le (sound.tokens token mem) tokens
  progress := sound.progress.frame asked
    (fun writing => files (.record call.request) ⟨rfl, sound.holds writing⟩)
    (fun token mem => files (.temporary call.request token) ⟨rfl, mem⟩)

/-- A call goes on. -/
theorem Sound.goes (sound : Sound digest w) (here : w.calls i = some call) (stage : Stage)
    (own : CallSound digest w' { call with stage := stage })
    (calls : w'.calls = (w.goes i call stage).calls) (asked : w'.asked = w.asked)
    (log : w'.log = w.log) (tokens : w.tokens ≤ w'.tokens)
    (volume : w'.volume.Holds (Fine digest w.asked w.log))
    (others : ∀ j other, j ≠ i → w.calls j = some other → ∀ name, other.Uses name →
      w'.volume.entries name = w.volume.entries name)
    (holds : ({ call with stage := stage } : Call).Holds → call.Holds
      ∨ ∀ j other, w.calls j = some other → other.request = call.request → ¬ other.Holds)
    (fresh : ∀ token ∈ stage.token?, token ∈ call.stage.token? ∨ token = w.tokens)
    : Sound digest w' := by
  have excluded : ∀ j other, j ≠ i → w.calls j = some other → other.request = call.request →
      other.Holds → ¬ ({ call with stage := stage } : Call).Holds := by
    intro j other different known same otherHolds callHolds
    rcases holds callHolds with held | free
    · exact different (sound.exclusive j i other call known here same otherHolds held)
    · exact free j other known same otherHolds
  have distinct : ∀ j other token, j ≠ i → w.calls j = some other →
      token ∈ other.stage.token? → token ∉ stage.token? := by
    intro j other token different known mem mem'
    rcases fresh token mem' with old | rfl
    · exact different (sound.tokens j i other call token known here mem old)
    · exact lt_irrefl _ ((sound.calls j other known).tokens _ mem)
  refine ⟨asked ▸ sound.typed, asked ▸ log ▸ volume, ?_, ?_, ?_, log ▸ sound.log⟩
  · intro j other known
    rw [calls] at known
    rcases calls_set known with ⟨rfl, same⟩ | ⟨different, old⟩
    · cases same
      exact own
    · exact (sound.calls j other old).frame (fun made mem => asked ▸ mem) tokens
        (others j other different old)
  · intro j k first second known known' same held held'
    rw [calls] at known known'
    rcases calls_set known with ⟨rfl, isOwn⟩ | ⟨different, old⟩
    · cases isOwn
      rcases calls_set known' with ⟨rfl, -⟩ | ⟨different, old⟩
      · rfl
      · exact absurd held (excluded k second different old same.symm held')
    · rcases calls_set known' with ⟨rfl, isOwn⟩ | ⟨-, old'⟩
      · cases isOwn
        exact absurd held' (excluded j first different old same held)
      · exact sound.exclusive j k first second old old' same held held'
  · intro j k first second token known known' mem mem'
    rw [calls] at known known'
    rcases calls_set known with ⟨rfl, isOwn⟩ | ⟨different, old⟩
    · cases isOwn
      rcases calls_set known' with ⟨rfl, -⟩ | ⟨different, old⟩
      · rfl
      · exact absurd mem (distinct k second token different old mem')
    · rcases calls_set known' with ⟨rfl, isOwn⟩ | ⟨-, old'⟩
      · cases isOwn
        exact absurd mem' (distinct j first token different old mem)
      · exact sound.tokens j k first second token old old' mem mem'

/-- Calls end without an outcome. -/
theorem Sound.drops (sound : Sound digest w) (calls : ∀ j other, w'.calls j = some other →
      w.calls j = some other ∧ ∀ name, other.Uses name →
        w'.volume.entries name = w.volume.entries name)
    (asked : w'.asked = w.asked) (tokens : w.tokens ≤ w'.tokens) (log : w'.log.Pairwise Sees)
    (volume : w'.volume.Holds (Fine digest w.asked w'.log))
    : Sound digest w' where
  typed := asked ▸ sound.typed
  volume := asked ▸ volume
  calls j other known := (sound.calls j other (calls j other known).1).frame
    (fun _ mem => asked ▸ mem) tokens (calls j other known).2
  exclusive j k first second known known' :=
    sound.exclusive j k first second (calls j first known).1 (calls k second known').1
  tokens j k first second token known known' :=
    sound.tokens j k first second token (calls j first known).1 (calls k second known').1
  log := log

/-- What there is of a record, as `load` finds it. -/
theorem Sound.found (sound : Sound digest w) (request : RequestId)
    : (load request (w.volume.entries (.record request)) = .ok none
        ∧ w.volume.entries (.record request) = none)
      ∨ ∃ m file, load request (w.volume.entries (.record request)) = .ok (some m)
        ∧ w.volume.entries (.record request) = some file ∧ Whole digest w.asked request m file := by
  have fine := (sound.volume.now (.record request)).1
  cases found : w.volume.entries (.record request) with
  | none => exact Or.inl ⟨rfl, rfl⟩
  | some file =>
      obtain ⟨m, whole⟩ := fine file found
      refine Or.inr ⟨m, file, ?_, rfl, whole⟩
      simp only [RequestMetadataStore.load, whole.file,
        RequestMetadata.decode_encode whole.encodable, whole.requestId, ne_eq, not_true_eq_false,
        if_false]

/-- What `load` finds of a whole record. -/
theorem load_encode (encodable : m.Encodable) (own : m.requestId = request)
    : load request (some ⟨m.encode, true⟩) = .ok (some m) := by
  simp only [load, RequestMetadata.decode_encode encodable, own, ne_eq, not_true_eq_false, if_false]

theorem load_eq_ok {found : Option RequestMetadata} (encodable : m.Encodable)
    (read : load request (some ⟨m.encode, true⟩) = .ok found)
    : found = some m := by
  simp only [load, RequestMetadata.decode_encode encodable] at read
  split at read
  · cases read
  · cases read
    rfl

/-- An outcome that writes nothing asks for nothing of the files. -/
theorem Fine.append {outcome : Outcome} (unwritten : ∀ m, outcome ≠ .wrote m) (name : Name)
    (version : Option Blob) (fine : Fine digest asked log name version)
    : Fine digest asked (log ++ [⟨request, outcome⟩]) name version := by
  cases name with
  | temporary request token => trivial
  | record own =>
      refine ⟨fine.1, ?_⟩
      intro entry mem same m wrote
      rcases List.mem_append.mp mem with old | new
      · exact fine.2 entry old same m wrote
      · obtain rfl := List.mem_singleton.mp new
        exact absurd wrote (unwritten m)

/-- A call ends with an outcome that shows what there is. -/
theorem Sound.ends {outcome : Outcome} (sound : Sound digest w)
    (files : ∀ j other, j ≠ i → w.calls j = some other → ∀ name, other.Uses name →
      w'.volume.entries name = w.volume.entries name)
    (calls : w'.calls = (w.set i none).calls) (tokens : w'.tokens = w.tokens)
    (asked : w'.asked = w.asked) (log : w'.log = w.log ++ [⟨request, outcome⟩])
    (volume : w'.volume.Holds (Fine digest w.asked w.log))
    (kept : w'.volume.Holds (Fine digest w.asked (w.log ++ [⟨request, outcome⟩])))
    (shown : ∀ found, outcome.shown = some found →
      load request (w'.volume.entries (.record request)) = .ok found)
    : Sound digest w' := by
  refine sound.drops ?_ asked tokens.ge ?_ (log ▸ kept)
  · intro j other known
    rw [calls] at known
    rcases calls_set known with ⟨rfl, same⟩ | ⟨different, old⟩
    · cases same
    · exact ⟨old, files j other different old⟩
  · rw [log]
    refine List.pairwise_append.mpr ⟨sound.log, List.pairwise_singleton _ _, ?_⟩
    intro earlier mem later mem'
    obtain rfl := List.mem_singleton.mp mem'
    intro same m found wrote shows
    obtain ⟨m', here, encodable, precedes⟩ :=
      (volume.now (.record request)).2 earlier mem same m wrote
    have read := shown found shows
    rw [here] at read
    exact ⟨m', Option.mem_def.mpr (load_eq_ok encodable read), precedes⟩

/-- What a call decides to write comes after what it has loaded. -/
theorem decide_write {found : Option RequestMetadata} {command : Command}
    (made : (request, command) ∈ asked) (typed : Typed asked)
    (loaded : ∀ old ∈ found, old.requestId = request ∧ Made digest asked old ∧ old.Encodable)
    (decided : decide digest request found command = .write m)
    : m.requestId = request ∧ Made digest asked m ∧ m.Encodable
      ∧ (∀ old ∈ found, old.Precedes m) ∧ command ≠ .load := by
  have advanced : ∀ {state old}, old ∈ found → advance state old = .write m →
      ((request, .setState state) ∈ asked ∨ (request, .setStateIfPresent state) ∈ asked) →
      m.requestId = request ∧ Made digest asked m ∧ m.Encodable
        ∧ ∀ old ∈ found, old.Precedes m := by
    intro state old mem advanced known
    unfold advance at advanced
    split at advanced
    · cases advanced
    · rename_i forward
      cases advanced
      obtain ⟨own, ⟨created, -⟩, encodable⟩ := loaded old mem
      refine ⟨own, ⟨created, Or.inr ?_⟩, ⟨encodable.requestId, encodable.createdAt⟩, ?_⟩
      · dsimp only
        rw [own]
        exact known
      · intro other mem'
        cases Option.mem_unique mem mem'
        exact ⟨rfl, rfl, rfl, not_lt.mp forward⟩
  cases command with
  | create createdAt prompt =>
      cases found with
      | some existing =>
          simp only [decide] at decided
          split at decided <;> cases decided
      | none =>
          cases decided
          obtain ⟨uuid, time⟩ := typed _ made
          refine ⟨rfl, ⟨⟨prompt, made, rfl⟩, Or.inl rfl⟩, ⟨uuid, time createdAt prompt rfl⟩, ?_, ?_⟩
          · intro old mem
            cases mem
          · intro same
            cases same
  | setState state =>
      cases found with
      | none => cases decided
      | some old =>
          obtain ⟨own, made', encodable, after⟩ := advanced rfl decided (Or.inl made)
          exact ⟨own, made', encodable, after, fun same => by cases same⟩
  | setStateIfPresent state =>
      cases found with
      | none => cases decided
      | some old =>
          obtain ⟨own, made', encodable, after⟩ := advanced rfl decided (Or.inr made)
          exact ⟨own, made', encodable, after, fun same => by cases same⟩
  | load => cases decided

/-- The outcome reports no write, and shows the record as it was found. -/
def Outcome.Reports (outcome : Outcome) (found : Option RequestMetadata) : Prop :=
  (∀ m, outcome ≠ .wrote m) ∧ ∀ shown, outcome.shown = some shown → shown = found

theorem reports_failed (error : String) (found : Option RequestMetadata)
    : (Outcome.failed error).Reports found :=
  ⟨fun _ same => by (cases same), fun _ same => by cases same⟩

/-- A call that decides to end shows what it has loaded. -/
theorem decide_finish {found : Option RequestMetadata} {command : Command} {outcome : Outcome}
    (decided : decide digest request found command = .finish outcome)
    : outcome.Reports found := by
  have advanced : ∀ {state old}, advance state old = .finish outcome →
      outcome.Reports found := by
    intro state old advanced
    unfold advance at advanced
    split at advanced
    · cases advanced
      exact reports_failed _ _
    · cases advanced
  cases command with
  | create createdAt prompt =>
      cases found with
      | none => cases decided
      | some existing =>
          simp only [decide] at decided
          split at decided
          · cases decided
            exact reports_failed _ _
          · cases decided
            exact ⟨fun _ same => by (cases same), fun _ same => (Option.some.inj same).symm⟩
  | setState state =>
      cases found with
      | none =>
          cases decided
          exact reports_failed _ _
      | some old => exact advanced decided
  | setStateIfPresent state =>
      cases found with
      | none =>
          cases decided
          exact ⟨fun _ same => by (cases same), fun _ same => (Option.some.inj same).symm⟩
      | some old => exact advanced decided
  | load =>
      cases decided
      exact ⟨fun _ same => by (cases same), fun _ same => (Option.some.inj same).symm⟩

/-- No other call uses the temporary file of a call, or one that is to be created. -/
theorem Sound.temporary {token : Nat} (sound : Sound digest w) (here : w.calls i = some call)
    (own : token ∈ call.stage.token? ∨ token = w.tokens) {owner : RequestId} {file : Option Blob}
    : ∀ j other, j ≠ i → w.calls j = some other → ∀ name, other.Uses name →
      (w.volume.put (.temporary owner token) file).entries name = w.volume.entries name := by
  intro j other different known name uses
  apply Volume.put_other
  rintro rfl
  rcases own with mem | rfl
  · exact different (sound.tokens j i other call token known here uses.2 mem)
  · exact lt_irrefl _ ((sound.calls j other known).tokens _ uses.2)

theorem Made.mono {more : List (RequestId × Command)} (made : Made digest asked m)
    : Made digest (asked ++ more) m := by
  obtain ⟨⟨prompt, created, hash⟩, state⟩ := made
  exact ⟨⟨prompt, List.mem_append_left _ created, hash⟩,
    state.imp_right (fun known => known.imp (List.mem_append_left _) (List.mem_append_left _))⟩

theorem Fine.mono {more : List (RequestId × Command)} (name : Name) (version : Option Blob)
    (fine : Fine digest asked log name version)
    : Fine digest (asked ++ more) log name version := by
  cases name with
  | temporary request token => trivial
  | record request =>
      refine ⟨fun file mem => ?_, fine.2⟩
      obtain ⟨m, whole⟩ := fine.1 file mem
      exact ⟨m, whole.file, whole.requestId, whole.made.mono, whole.encodable⟩

theorem Sound.starts {command : Command} (sound : Sound digest w) (uuid : request.number < 2 ^ 128)
    (time : ∀ createdAt prompt, command = .create createdAt prompt →
      -(2 ^ 63) ≤ createdAt ∧ createdAt < 2 ^ 63)
    : Sound digest { w.set i (some (.new request command)) with
        asked := w.asked ++ [(request, command)] } := by
  have idle : ¬ (Call.new request command).Holds := by
    intro holds
    exact holds.2 (if_neg holds.1)
  have stage : (Call.new request command).stage = .loading
      ∨ (Call.new request command).stage = .locking := by
    dsimp only [Call.new]
    split
    · exact Or.inl rfl
    · exact Or.inr rfl
  have token : (Call.new request command).stage.token? = none := by
    rcases stage with same | same <;> rw [same] <;> rfl
  refine ⟨?_, sound.volume.imp Fine.mono, ?_, ?_, ?_, sound.log⟩
  · intro made mem
    rcases List.mem_append.mp mem with old | new
    · exact sound.typed made old
    · obtain rfl := List.mem_singleton.mp new
      exact ⟨uuid, time⟩
  · intro j other known
    rcases calls_set known with ⟨rfl, same⟩ | ⟨different, old⟩
    · cases same
      refine ⟨List.mem_append_right _ (List.mem_singleton.mpr rfl), ?_, ?_, ?_⟩
      · intro writing
        rcases stage with same | same <;> rw [same] at writing <;> exact writing.elim
      · intro other mem
        rw [token] at mem
        cases mem
      · rcases stage with same | same <;> rw [same] <;> trivial
    · exact (sound.calls j other old).frame (fun _ mem => List.mem_append_left _ mem) le_rfl
        (fun _ _ => rfl)
  · intro j k first second known known' same held held'
    rcases calls_set known with ⟨rfl, own⟩ | ⟨-, old⟩
    · cases own
      exact absurd held idle
    · rcases calls_set known' with ⟨rfl, own⟩ | ⟨-, old'⟩
      · cases own
        exact absurd held' idle
      · exact sound.exclusive j k first second old old' same held held'
  · intro j k first second other known known' mem mem'
    rcases calls_set known with ⟨rfl, own⟩ | ⟨-, old⟩
    · cases own
      rw [token] at mem
      cases mem
    · rcases calls_set known' with ⟨rfl, own⟩ | ⟨-, old'⟩
      · cases own
        rw [token] at mem'
        cases mem'
      · exact sound.tokens j k first second other old old' mem mem'

/-- The record stays while a temporary file changes. -/
theorem Next.frame (next : Next digest w request m) (asked : w'.asked = w.asked)
    (record : w'.volume.entries (.record request) = w.volume.entries (.record request))
    : Next digest w' request m :=
  ⟨next.requestId, asked ▸ next.made, next.encodable, fun old encodable here =>
    next.after old encodable (record.symm.trans here)⟩

/-- A call fails, whatever became of its temporary file. -/
theorem Sound.fails {v : Volume Name} {error : String} (sound : Sound digest w)
    (files : ∀ j other, j ≠ i → w.calls j = some other → ∀ name, other.Uses name →
      v.entries name = w.volume.entries name)
    (volume : v.Holds (Fine digest w.asked w.log))
    : Sound digest ((w.stores v).ends i call (.failed error)) := by
  refine sound.ends files rfl rfl rfl rfl volume
    (volume.imp (Fine.append (reports_failed error none).1)) ?_
  intro found shows
  cases shows

/-- A call goes on with its temporary file, or with a new one. -/
theorem Sound.fills {token tokens : Nat} {stage : Stage} {file : Blob} (sound : Sound digest w)
    (here : w.calls i = some call) (writing : call.stage.Writing)
    (own : token ∈ call.stage.token? ∨ token = w.tokens) (more : w.tokens ≤ tokens)
    (below : token < tokens) (same : stage.token? = some token)
    (progress : ∀ w' : World, w'.asked = w.asked →
      w'.volume.entries (.record call.request) = w.volume.entries (.record call.request) →
      w'.volume.entries (.temporary call.request token) = some file →
      Progress digest w' call.request stage)
    : Sound digest { (w.puts (.temporary call.request token) (some file)).goes i call stage with
        tokens := tokens } := by
  refine sound.goes here stage ⟨(sound.calls i call here).asked, ?_, ?_, ?_⟩ rfl rfl rfl more
    (sound.volume.put trivial) (sound.temporary here own) ?_ ?_
  · exact fun _ => (sound.calls i call here).writing writing
  · intro other mem
    cases mem.symm.trans same
    exact below
  · exact progress _ rfl (Volume.put_other (by simp)) (Volume.put_same _ _ _)
  · exact fun _ => Or.inl ((sound.calls i call here).holds writing)
  · intro other mem
    cases mem.symm.trans same
    exact own

/-- What a call has decided to write comes after the record it has loaded. -/
theorem Sound.next {found : Option RequestMetadata} (sound : Sound digest w)
    (here : w.calls i = some call)
    (read : load call.request (w.volume.entries (.record call.request)) = .ok found)
    (decided : decide digest call.request found call.command = .write m)
    : Next digest w call.request m ∧ call.command ≠ .load := by
  have asked := (sound.calls i call here).asked
  rcases sound.found call.request with ⟨ok, missing⟩ | ⟨m', file, ok, entry, whole⟩
  · obtain rfl := Except.ok.inj (ok.symm.trans read)
    obtain ⟨own, made, encodable, -, writes⟩ :=
      decide_write asked sound.typed (fun _ mem => by cases mem) decided
    refine ⟨⟨own, made, encodable, fun _ _ there => ?_⟩, writes⟩
    rw [missing] at there
    cases there
  · obtain rfl := Except.ok.inj (ok.symm.trans read)
    have loaded : ∀ old ∈ some m',
        old.requestId = call.request ∧ Made digest w.asked old ∧ old.Encodable := by
      intro old mem
      cases mem
      exact ⟨whole.requestId, whole.made, whole.encodable⟩
    obtain ⟨own, made, encodable, after, writes⟩ := decide_write asked sound.typed loaded decided
    refine ⟨⟨own, made, encodable, fun before encodable' there => ?_⟩, writes⟩
    rw [there] at ok
    exact after before (load_eq_ok encodable' ok)

/-- The rename puts a later record in the place of the one there is. -/
theorem Sound.renames {token : Nat} (sound : Sound digest w) (here : w.calls i = some call)
    (stage : call.stage = .synced m token)
    : Sound digest ((w.stores (w.volume.rename (.temporary m.requestId token)
        (.record m.requestId))).goes i call (.renamed m)) := by
  have old := sound.calls i call here
  have writing : call.stage.Writing := by rw [stage]; trivial
  have token' : token ∈ call.stage.token? := by rw [stage]; rfl
  have progress := old.progress
  rw [stage] at progress
  obtain ⟨next, file⟩ := progress
  have own := next.requestId
  rw [← own] at file
  have fine : Fine digest w.asked w.log (.record m.requestId)
      (w.volume.entries (.temporary m.requestId token)) := by
    rw [file]
    constructor
    · intro file' mem
      cases mem
      exact ⟨m, rfl, rfl, next.made, next.encodable⟩
    · intro entry mem same acked wrote
      obtain ⟨m', there, encodable, precedes⟩ :=
        (sound.volume.now (.record m.requestId)).2 entry mem same acked wrote
      exact ⟨m, rfl, next.encodable, precedes.trans (next.after m' encodable (own ▸ there))⟩
  refine sound.goes here (.renamed m) ⟨old.asked, fun _ => old.writing writing, ?_, ?_⟩ rfl rfl rfl
    le_rfl (sound.volume.rename fine trivial) ?_ (fun _ => Or.inl (old.holds writing)) ?_
  · intro other mem
    cases mem
  · refine ⟨own, next.encodable, ?_⟩
    rw [← own]
    exact (Volume.rename_target (by simp)).trans file
  · intro j other different known name uses
    apply Volume.rename_other
    · rintro rfl
      exact different (sound.tokens j i other call token known here uses.2 token')
    · rintro rfl
      exact different (sound.exclusive j i other call known here (uses.1.symm.trans own) uses.2
        (old.holds writing))
  · intro other mem
    cases mem

/-- Once the directory is synced, the record is the only version there is. -/
theorem Sound.settles (sound : Sound digest w) (here : w.calls i = some call)
    (stage : call.stage = .renamed m)
    : Sound digest ((w.stores w.volume.settle).ends i call (.wrote m)) := by
  have progress := (sound.calls i call here).progress
  rw [stage] at progress
  obtain ⟨own, encodable, there⟩ := progress
  refine sound.ends (fun _ _ _ _ _ _ => rfl) rfl rfl rfl rfl sound.volume.settle ?_ ?_
  · refine ⟨fun _ => List.mem_singleton.mpr rfl, ?_⟩
    intro name version mem
    obtain rfl := List.mem_singleton.mp mem
    have fine := sound.volume.now name
    cases name with
    | temporary request token => trivial
    | record request =>
        refine ⟨fine.1, ?_⟩
        intro entry mem same acked wrote
        rcases List.mem_append.mp mem with before | new
        · exact fine.2 entry before same acked wrote
        · obtain rfl := List.mem_singleton.mp new
          cases wrote
          cases same
          exact ⟨_, there, encodable, .refl _⟩
  · intro found shows
    cases shows
    exact (congrArg _ there).trans (load_encode encodable own)

theorem Sound.works (sound : Sound digest w) (here : w.calls i = some call)
    (works : Works digest w i call w')
    : Sound digest w' := by
  have old := sound.calls i call here
  have quiet : ∀ j other, j ≠ i → w.calls j = some other → ∀ name, other.Uses name →
      w.volume.entries name = w.volume.entries name := fun _ _ _ _ _ _ => rfl
  cases works with
  | locks stage free =>
      refine sound.goes here .loading ⟨old.asked, fun writing => writing.elim, ?_, trivial⟩
        rfl rfl rfl le_rfl sound.volume quiet (fun _ => Or.inr free) ?_
      · intro token mem
        cases mem
      · intro token mem
        cases mem
  | misreads stage found =>
      rcases sound.found call.request with ⟨ok, -⟩ | ⟨m, file, ok, -⟩
      · cases ok.symm.trans found
      · cases ok.symm.trans found
  | finishes stage read decided =>
      have reports := decide_finish decided
      exact sound.ends quiet rfl rfl rfl rfl sound.volume (sound.volume.imp (Fine.append reports.1))
        (fun shown shows => reports.2 shown shows ▸ read)
  | @writes found m stage read decided =>
      obtain ⟨next, writes⟩ := sound.next here read decided
      refine sound.goes here (.creating m) ⟨old.asked, fun _ => writes, ?_, next.frame rfl rfl⟩
        rfl rfl rfl le_rfl sound.volume quiet ?_ ?_
      · intro token mem
        cases mem
      · intro holds
        refine Or.inl ⟨holds.1, ?_⟩
        rw [stage]
        exact fun same => by cases same
      · intro token mem
        cases mem
  | @creates m stage =>
      have progress := old.progress
      rw [stage] at progress
      have next : Next digest w call.request m := progress
      have writing : call.stage.Writing := by rw [stage]; trivial
      rw [next.requestId]
      apply sound.fills here writing (Or.inr rfl) (Nat.le_succ _) (Nat.lt_succ_self _) rfl
      intro w' asked record file
      exact ⟨next.frame asked record, _, file, rfl⟩
  | @fills m token chunk left file stage found =>
      have progress := old.progress
      rw [stage] at progress
      obtain ⟨next, file', found', bytes⟩ := progress
      have writing : call.stage.Writing := by rw [stage]; trivial
      have own : token ∈ call.stage.token? := by rw [stage]; rfl
      rw [next.requestId] at found ⊢
      obtain rfl := Option.some.inj (found.symm.trans found')
      apply sound.fills here writing (Or.inl own) le_rfl (old.tokens token own) rfl
      intro w' asked record file
      exact ⟨next.frame asked record, _, file, (List.append_assoc _ _ _).trans bytes⟩
  | @syncs m token file stage found =>
      have progress := old.progress
      rw [stage] at progress
      obtain ⟨next, file', found', bytes⟩ := progress
      have writing : call.stage.Writing := by rw [stage]; trivial
      have own : token ∈ call.stage.token? := by rw [stage]; rfl
      rw [next.requestId] at found ⊢
      obtain rfl := Option.some.inj (found.symm.trans found')
      rw [List.append_nil] at bytes
      apply sound.fills here writing (Or.inl own) le_rfl (old.tokens token own) rfl
      intro w' asked record file
      exact ⟨next.frame asked record, bytes ▸ file⟩
  | renames stage => exact sound.renames here stage
  | settles stage => exact sound.settles here stage
  | @removes token error stage gone =>
      have own : token ∈ call.stage.token? := by rw [stage]; rfl
      cases gone with
      | true => exact sound.fails (sound.temporary here (Or.inl own)) (sound.volume.put trivial)
      | false => exact sound.fails quiet sound.volume

theorem Sound.step (sound : Sound digest w) (step : Step digest w act w') : Sound digest w' := by
  have quiet : ∀ i j other, j ≠ i → w.calls j = some other → ∀ name, other.Uses name →
      w.volume.entries name = w.volume.entries name := fun _ _ _ _ _ _ _ => rfl
  cases step with
  | starts idle uuid time => exact sound.starts uuid time
  | works here works => exact sound.works here works
  | @fails i call here error untouched => exact sound.fails (quiet i) sound.volume
  | @failsWriting i call token here error touched =>
      have old := sound.calls i call here
      have writing : call.stage.Writing := by
        cases stage : call.stage <;> rw [stage] at touched <;> trivial
      refine sound.goes here (.removing token error) ⟨old.asked, fun _ => old.writing writing, ?_,
        trivial⟩ rfl rfl rfl le_rfl sound.volume (quiet i) (fun _ => Or.inl (old.holds writing)) ?_
      · intro other mem
        cases mem
        exact old.tokens token touched
      · intro other mem
        cases mem
        exact Or.inl touched
  | kills i =>
      refine sound.drops ?_ rfl le_rfl sound.log sound.volume
      intro j other known
      rcases calls_set known with ⟨rfl, same⟩ | ⟨different, old⟩
      · cases same
      · exact ⟨old, fun _ _ => rfl⟩
  | losesPower lost =>
      refine sound.drops ?_ rfl le_rfl sound.log (sound.volume.lost lost ?_)
      · intro j other known
        cases known
      · intro name version survivor fine survives
        cases name with
        | temporary request token => trivial
        | record request =>
            cases survives with
            | missing => exact fine
            | safe synced => exact fine
            | torn bytes unsynced =>
                obtain ⟨m, whole⟩ := fine.1 _ rfl
                rw [whole.file] at unsynced
                cases unsynced

theorem reachable_sound (reached : (store digest).Reachable w) : Sound digest w := by
  refine reached.invariant ?_ (fun _ _ _ _ sound step => sound.step step)
  rintro w ⟨volume, calls, asked, log⟩
  refine ⟨?_, ?_, ?_, ?_, ?_, ?_⟩
  · rw [asked]
    exact fun made mem => absurd mem List.not_mem_nil
  · rw [volume, asked, log]
    apply Volume.Holds.empty
    intro name
    cases name with
    | temporary request token => trivial
    | record request =>
        exact ⟨fun _ mem => by (cases mem), fun _ mem => absurd mem List.not_mem_nil⟩
  · intro i call known
    rw [calls i] at known
    cases known
  · intro i j call other known
    rw [calls i] at known
    cases known
  · intro i j call other token known
    rw [calls i] at known
    cases known
  · rw [log]
    exact .nil

-----------------------------------------------------------------------------------------
-- What callers can rely on
-----------------------------------------------------------------------------------------

/-- Whatever fails and whenever the power is lost, `load` never fails on what a record's name stands
for: it finds no record, or a whole one of the request that calls made and asked for.
-/
theorem load_whole (reached : (store digest).Reachable w) (request : RequestId)
    : ∃ found, load request (w.volume.entries (.record request)) = .ok found
      ∧ ∀ m ∈ found, m.requestId = request ∧ Made digest w.asked m := by
  rcases (reachable_sound reached).found request with ⟨ok, -⟩ | ⟨m, file, ok, -, whole⟩
  · exact ⟨none, ok, fun _ mem => by cases mem⟩
  · refine ⟨some m, ok, ?_⟩
    intro m' mem
    cases mem
    exact ⟨whole.requestId, whole.made⟩

/-- A step that is no power loss leaves a record as it is or replaces it by a later one. -/
theorem Sound.advances (sound : Sound digest w) (step : Step digest w act w')
    (powered : act ≠ .powerLoss) (encodable : m.Encodable)
    (found : w.volume.entries (.record request) = some ⟨m.encode, true⟩)
    : ∃ m' : RequestMetadata, w'.volume.entries (.record request) = some ⟨m'.encode, true⟩
      ∧ m'.Encodable ∧ m.Precedes m' := by
  have record : ∀ {owner token file}, (w.volume.put (.temporary owner token) file).entries
      (.record request) = w.volume.entries (.record request) :=
    fun {_ _ _} => Volume.put_other (by simp)
  have stays : w'.volume.entries (.record request) = w.volume.entries (.record request) →
      ∃ m' : RequestMetadata, w'.volume.entries (.record request) = some ⟨m'.encode, true⟩
        ∧ m'.Encodable ∧ m.Precedes m' :=
    fun same => ⟨m, same.trans found, encodable, .refl m⟩
  cases step with
  | starts | fails | failsWriting | kills => exact stays rfl
  | losesPower => exact absurd rfl powered
  | @works i call w' here works =>
      cases works with
      | locks | misreads | finishes | writes | settles => exact stays rfl
      | creates | fills | syncs => exact stays record
      | removes stage gone =>
          cases gone with
          | true => exact stays record
          | false => exact stays rfl
      | @renames next token stage =>
          have progress := (sound.calls i call here).progress
          rw [stage] at progress
          obtain ⟨known, file⟩ := progress
          have own := known.requestId
          rcases eq_or_ne request call.request with rfl | different
          · refine ⟨next, ?_, known.encodable, known.after m encodable found⟩
            rw [← own] at file ⊢
            exact (Volume.rename_target (by simp)).trans file
          · exact stays (Volume.rename_other (by simp) (by simp [own, different]))

/-- The power is not lost. -/
def Powered (_ : World) (act : Act) : Prop := act ≠ .powerLoss

/-- While the power is not lost, records are never lost, and go on to later states of the same
prompt only.
-/
theorem records_advance (reached : (store digest).Reachable w)
    (run : ((store digest).restrict Powered).Run w w')
    (found : load request (w.volume.entries (.record request)) = .ok (some m))
    : ∃ m', load request (w'.volume.entries (.record request)) = .ok (some m') ∧ m.Precedes m' := by
  have kept : Sound digest w' ∧ ∃ m' : RequestMetadata,
      w'.volume.entries (.record request) = some ⟨m'.encode, true⟩ ∧ m'.Encodable
        ∧ m.Precedes m' := by
    refine run.kept (J := fun t => Sound digest t ∧ ∃ m' : RequestMetadata,
      t.volume.entries (.record request) = some ⟨m'.encode, true⟩ ∧ m'.Encodable
        ∧ m.Precedes m') ?_ ⟨reachable_sound reached, ?_⟩
    · intro t act u ⟨sound, m', here, encodable, precedes⟩ ⟨powered, step⟩
      obtain ⟨m'', there, encodable', precedes'⟩ := sound.advances step powered encodable here
      exact ⟨sound.step step, m'', there, encodable', precedes.trans precedes'⟩
    · rcases (reachable_sound reached).found request with ⟨ok, -⟩ | ⟨m', file, ok, entry, whole⟩
      · cases ok.symm.trans found
      · cases ok.symm.trans found
        exact ⟨m, entry.trans (congrArg some whole.file), whole.encodable, .refl m⟩
  obtain ⟨sound, m', here, encodable, precedes⟩ := kept
  rcases sound.found request with ⟨-, missing⟩ | ⟨m'', file, ok, entry, whole⟩
  · cases missing.symm.trans here
  · rw [here] at ok
    cases load_eq_ok encodable ok
    exact ⟨m', by rw [here]; exact ok, precedes⟩

end Safety

/-! The record of an empty prompt is written, and another call starts. -/

namespace Submitted

def digest (_ : String) : String :=
  "e3b0c44298fc1c149afbf4c8996fb92427ae41e4649b934ca495991b7852b855"

def request : RequestId := ⟨7⟩

def created : RequestMetadata := ⟨request, 5, digest "", .created⟩

def call (stage : Stage) : Call := ⟨request, .create 5 "", stage⟩

def started : World :=
  { volume := .empty
    calls := fun i => if i = 0 then some (call .locking) else none
    tokens := 0
    asked := [(request, .create 5 "")]
    log := [] }

def creating : World :=
  (started.goes 0 (call .locking) .loading).goes 0 (call .loading) (.creating created)

def temporary : World :=
  { (creating.puts (.temporary request 0) (some ⟨[], false⟩)).goes 0 (call (.creating created))
      (.filling created 0 created.encode) with tokens := 1 }

def filled : World :=
  (temporary.puts (.temporary request 0) (some ⟨[] ++ created.encode, false⟩)).goes 0
    (call (.filling created 0 created.encode)) (.filling created 0 [])

def renamed : World :=
  let synced := (filled.puts (.temporary request 0) (some ⟨[] ++ created.encode, true⟩)).goes 0
    (call (.filling created 0 [])) (.synced created 0)
  (synced.stores (synced.volume.rename (.temporary request 0) (.record request))).goes 0
    (call (.synced created 0)) (.renamed created)

def written : World :=
  (renamed.stores renamed.volume.settle).ends 0 (call (.renamed created)) (.wrote created)

/-- Another call starts. -/
def loading : World :=
  { written.set 1 (some (.new request .load)) with asked := written.asked ++ [(request, .load)] }

theorem reaches {w w' : World} {act : Act} (reached : (store digest).Reachable w)
    (step : Step digest w act w')
    : (store digest).Reachable w' :=
  .step reached step

theorem reachable_creating : (store digest).Reachable creating := by
  have start : (store digest).Reachable ⟨.empty, fun _ => none, 0, [], []⟩ :=
    .initial ⟨rfl, fun _ => rfl, rfl, rfl⟩
  have called : (store digest).Reachable started :=
    reaches start (@Step.starts _ _ 0 request (.create 5 "") rfl (by decide) (by
      intro createdAt prompt same
      cases same
      decide))
  have locked := reaches called (.works (i := 0) rfl
    (.locks rfl (fun j other known _ held => by
      by_cases same : j = 0
      · subst same
        cases known
        exact held.2 rfl
      · cases (if_neg same).symm.trans known)))
  exact reaches locked (.works (i := 0) rfl (@Works.writes digest _ 0 _ none created rfl rfl rfl))

theorem reachable_written : (store digest).Reachable written := by
  have temporary' : (store digest).Reachable temporary :=
    reaches reachable_creating (.works (i := 0) rfl (.creates (m := created) rfl))
  have whole : (call (.filling created 0 created.encode)).stage
      = .filling created 0 (created.encode ++ []) := by
    rw [List.append_nil]
    rfl
  have here : temporary.calls 0 = some (call (.filling created 0 created.encode)) := rfl
  have stored : temporary.volume.entries (.temporary created.requestId 0) = some ⟨[], false⟩ := rfl
  have filled' : (store digest).Reachable filled :=
    reaches temporary' (.works here (.fills whole stored))
  have synced := reaches filled' (.works (i := 0) rfl (.syncs (m := created) rfl rfl))
  have renamed' : (store digest).Reachable renamed :=
    reaches synced (.works (i := 0) rfl (.renames (m := created) rfl))
  exact reaches renamed' (.works (i := 0) rfl (.settles (m := created) rfl))

theorem load_whole_written
    : ∃ found, load request (written.volume.entries (.record request)) = .ok found
      ∧ ∀ m ∈ found, m.requestId = request ∧ Made digest written.asked m :=
  load_whole reachable_written request

theorem records_advance_written
    : ∃ m', load request (loading.volume.entries (.record request)) = .ok (some m')
      ∧ created.Precedes m' := by
  have starts : Step digest written .start loading :=
    .starts rfl (by decide) (fun createdAt prompt same => by cases same)
  have powered : Powered written .start := fun same => by cases same
  have run : ((store digest).restrict Powered).Run written loading := .step .refl ⟨powered, starts⟩
  have stored : written.volume.entries (.record request) = some ⟨created.encode, true⟩ := rfl
  have encodable : created.Encodable := ⟨by decide, by decide⟩
  have found := load_encode encodable (rfl : created.requestId = request)
  rw [← stored] at found
  exact records_advance reachable_written run found

end Submitted

end RequestMetadataStore

end Codrik.Interfaces
