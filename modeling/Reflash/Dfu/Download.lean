import Reflash.Dfu.Wait
import Reflash.Firmware.ChunkPlan

/-!
# Reflash.Dfu.Download — sending an image to a loader

One download is outstanding at a time: a chunk is sent, then the status is read until the loader is idle again
or has failed, and only then does the next chunk follow.  An empty download ends the image, and the manifest
wait confirms that the loader programmed it.  A request to stop is heeded between chunks only: a chunk that was
sent is always waited for, and the manifest wait is never cut short.
-/

namespace Reflash

/-- Times and sizes of a download. -/
structure TransferConfig where
  /-- Most bytes that one download carries. -/
  maxChunk : Nat := ControlPacket.maxChunk
  chunkTimeout : Nanos := Nanos.ofSeconds 5
  chunkPoll : Nanos := Nanos.ofMillis 5
  manifestTimeout : Nanos := Nanos.ofSeconds 15
  manifestPoll : Nanos := Nanos.ofMillis 200
  requestTimeout : Nanos := defaultRequestTimeout
  detachMillis : UInt16 := ControlPacket.defaultDetachMillis
  /-- The pause between the end of the image and the manifest wait. -/
  settleDelay : Nanos := Nanos.ofMillis 100
  deriving DecidableEq

/-- Why an image was not transferred. -/
inductive TransferError where
  | emptyImage
  | unexpectedState (state : DfuState)
  | corruptedImage (transaction : UInt16)
  | device (code : StatusCode) (transaction : UInt16)
  | errorState (transaction : UInt16)
  | chunkTimeout (transaction : UInt16) (after : Nanos)
  | manifestTimeout (after : Nanos)
  | manifestStatus (code : StatusCode)
  | manifestErrorState
  | stopped
  | link (e : LinkError)
  deriving DecidableEq

namespace TransferError

def message : TransferError → String
  | .emptyImage => "firmware image is empty"
  | .unexpectedState state => "unexpected DFU state from the last session: " ++ state.name
  | .corruptedImage transaction =>
    "ERROR_FILE at transaction " ++ Text.decimal transaction.toNat
      ++ ": firmware file seems corrupted; is it a signed image?"
  | .device code transaction =>
    code.name ++ " at transaction " ++ Text.decimal transaction.toNat ++ ": " ++ code.description
  | .errorState transaction => "device entered the DFU error state at transaction " ++
      Text.decimal transaction.toNat
  | .chunkTimeout transaction after =>
    "no acknowledgement for transaction " ++ Text.decimal transaction.toNat ++ " within " ++ after.text
  | .manifestTimeout after => "firmware manifest did not finish within " ++ after.text
  | .manifestStatus code => "firmware manifest failed with " ++ code.name ++ ": " ++ code.description
  | .manifestErrorState => "firmware manifest failed: device in DFU error state"
  | .stopped => "transfer cancelled"
  | .link e => "control transfer failed: " ++ e.message

/-- The code that the loader gave for the failure, if it gave one. -/
def code? : TransferError → Option StatusCode
  | .corruptedImage _ => some .file
  | .device code _ => some code
  | .manifestStatus code => some code
  | _ => none

/-- Whether another session may succeed.  An image that was refused is refused again. -/
def isRetryable : TransferError → Bool
  | .emptyImage | .corruptedImage _ | .manifestStatus .file => false
  | _ => true

end TransferError

namespace Dfu

variable (channel : ControlChannel) (config : TransferConfig)

/-- Leaves the last session by a DETACH; the loader must then be idle. -/
def prepare : Attempt TransferError DeviceStatus := do
  discard <| Attempt.of .link
    (ask (.transfer channel (.detach config.detachMillis) (Nanos.ofMillis config.detachMillis.toNat)))
  let status ← Attempt.of .link (queryStatus channel config.requestTimeout)
  report .debug ("DFU status " ++ status.code.name ++ " state " ++ status.state.name ++ " poll "
    ++ Text.decimal status.pollMillis ++ "ms string " ++ Text.decimal status.stringIndex.toNat)
  match status.state with
  | .appIdle | .dfuIdle => return status
  | state => throw (.unexpectedState state)

def send (transaction : UInt16) (payload : Bytes) : Attempt TransferError Unit :=
  discard <| Attempt.of .link (ask (.transfer channel (.download transaction payload) config.requestTimeout))

/-- Gives the download up; a failure to do so is only reported. -/
def abort : Action Unit := do
  match ← ask (.transfer channel .abort config.requestTimeout) with
  | .ok _ => return ()
  | .error e => report .warn ("DFU abort failed: " ++ e.message)

/-- The wait for the acknowledgement of a chunk. -/
def chunkWait : Wait where
  accepted := [.downloadIdle, .error]
  timeout := config.chunkTimeout
  interval := config.chunkPoll
  requestTimeout := config.requestTimeout

/-- The wait for the end of the manifest phase. -/
def manifestWait : Wait where
  accepted := [.manifestWaitReset, .error]
  timeout := config.manifestTimeout
  interval := config.manifestPoll
  requestTimeout := config.requestTimeout

/-- How the end of a chunk's wait fails the download. -/
def chunkFailure (transaction : UInt16) : WaitError → TransferError
  | .timeout after _ _ => .chunkTimeout transaction after
  | .stopped => .stopped
  | .link e => .link e

/-- How the end of the manifest wait fails the download. -/
def manifestFailure : WaitError → TransferError
  | .timeout after _ _ => .manifestTimeout after
  | .stopped => .stopped
  | .link e => .link e

/-- What the status after a chunk says about it: the code is looked at before the state. -/
def chunkVerdict (transaction : UInt16) (status : DeviceStatus) : Except TransferError Unit :=
  if status.code = .file then .error (.corruptedImage transaction)
  else if !status.isOk then .error (.device status.code transaction)
  else if status.isError then .error (.errorState transaction)
  else .ok ()

/-- What the status after the manifest phase says about the image. -/
def manifestVerdict (status : DeviceStatus) : Except TransferError DeviceStatus :=
  if !status.isOk then .error (.manifestStatus status.code)
  else if status.state ≠ .manifestWaitReset then .error .manifestErrorState
  else .ok status

/-- Waits until a chunk is acknowledged. -/
def awaitChunk (transaction : UInt16) : Attempt TransferError Unit := do
  let status ← Attempt.of (chunkFailure transaction) ((chunkWait config).run channel)
  Attempt.decided (chunkVerdict transaction status)

/-- Waits until the loader has programmed the image. -/
def manifest : Attempt TransferError DeviceStatus := do
  report .info "running post download processes"
  let status ← Attempt.of manifestFailure ((manifestWait config).run channel)
  Attempt.decided (manifestVerdict status)

/-- Sends the chunks of a plan, `image` being what is left to send.  `progress` hears the fraction of `total`
that is sent, after each chunk.  The result is the first unused transaction number. -/
def sendChunks (heedsStop : Bool) (progress : Single → Action Unit) (total : Nat) :
    List Chunk → (image : Bytes) → (sent : Nat) → (transaction : UInt16) → Attempt TransferError UInt16
  | [], _, sent, transaction => do
    report .info ("sent " ++ Text.decimal sent ++ " bytes in " ++
      Text.decimal transaction.toNat ++ " transactions")
    return transaction
  | chunk :: chunks, image, sent, transaction => do
    if ← shouldStop heedsStop then
      abort channel config
      throw .stopped
    send channel config transaction (image.take chunk.length)
    progress (Single.quotient (sent + chunk.length) total)
    awaitChunk channel config transaction
    sendChunks heedsStop progress total chunks (image.drop chunk.length) (sent + chunk.length) (transaction + 1)

/-- Sends every chunk of an image.  The result is the first unused transaction number. -/
def download (heedsStop : Bool) (image : Bytes) (progress : Single → Action Unit) :
    Attempt TransferError UInt16 := do
  if image.isEmpty then
    throw .emptyImage
  let plan : ChunkPlan := ⟨image.length, config.maxChunk⟩
  sendChunks channel config heedsStop progress image.length plan.chunks image 0 0

/-- Ends an image by an empty download and lets the loader settle. -/
def finish (progress : Single → Action Unit) (transaction : UInt16) : Attempt TransferError Unit := do
  send channel config transaction []
  (tell (.sleep config.settleDelay) : Action Unit)
  progress .one

/-- Sends a whole image and waits until the loader has programmed it. -/
def transfer (heedsStop : Bool) (image : Bytes) (progress : Single → Action Unit) :
    Attempt TransferError Unit := do
  let transaction ← download channel config heedsStop image progress
  finish channel config progress transaction
  discard <| manifest channel config

end Dfu

end Reflash
