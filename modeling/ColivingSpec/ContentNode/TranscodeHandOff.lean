import ColivingSpec.ContentNode.AsyncProcessingQueue
import ColivingSpec.Lib.DistinctDraws
import ColivingSpec.Lib.Replay
import Mathlib.Data.Rat.Floor

/-!
# Handing transcodes to other nodes

A node that does not transcode by itself hands uploads to other content nodes
(digitalContentTranscodeHandoffManager.js): it selects some of them, and tries one after the other.
-/

/-!
## The content nodes that a transcode is handed to

`selectRandomSPs` (digitalContentTranscodeHandoffManager.js) draws registered content nodes at
random until it has as many as it wants. It wants as many as the whole list has, up to a bound, but
keeps only endpoints that it does not have yet and that are not its own.
-/

namespace ColivingSpec

open Lib

namespace HandOff

/-- Number of content nodes that an upload may be handed to (line 17). -/
def NUMBER_OF_SPS_FOR_HANDOFF_DIGITAL_CONTENT : ℕ := 3

/-- `getRandomInt` (utils.js, lines 36–38) on what `Math.random` returns. -/
def getRandomInt (max : ℕ) (random : ℚ) : ℕ := ⌊random * max⌋₊

/-- What `Math.random` returns one call after the other, when each position of a list with the
length keeps being drawn. -/
structure RandomValues (max : ℕ) where
  value : ℕ → ℚ
  nonneg : ∀ k, 0 ≤ value k
  lt_one : ∀ k, value k < 1
  recurs : ∀ index < max, ∀ k, ∃ later, k ≤ later ∧ getRandomInt max (value later) = index

/-- `selectRandomSPs` (lines 147–165) on the endpoints of the registered content nodes, with fuel
for its loop. -/
def selectRandomSPs (CONTENT_NODE_ENDPOINT : String) (allSPs : List String) (random : ℕ → ℚ)
    (fuel : ℕ) : Option (List String) :=
  let numberOfSps :=
    if allSPs.length < NUMBER_OF_SPS_FOR_HANDOFF_DIGITAL_CONTENT then allSPs.length
    else NUMBER_OF_SPS_FOR_HANDOFF_DIGITAL_CONTENT
  drawDistinct (fun currentSP ↦ currentSP != CONTENT_NODE_ENDPOINT)
    (fun k ↦ allSPs[getRandomInt allSPs.length (random k)]?) numberOfSps fuel 0 []

/-- The distinct endpoints of the other content nodes. -/
def otherEndpoints (own : String) (allSPs : List String) : List String :=
  (allSPs.filter (· != own)).dedup

/-- Endpoints to hand an upload to: distinct ones of other content nodes, as many as wanted or as
there are. -/
structure Selection (own : String) (allSPs selected : List String) : Prop where
  nodup : selected.Nodup
  other : own ∉ selected
  registered : selected ⊆ allSPs
  length_eq : selected.length =
    min NUMBER_OF_SPS_FOR_HANDOFF_DIGITAL_CONTENT (otherEndpoints own allSPs).length

variable {own : String} {allSPs : List String}

/-- The loop wants the bound, or all of a shorter list. -/
theorem numberOfSps_eq : (if allSPs.length < NUMBER_OF_SPS_FOR_HANDOFF_DIGITAL_CONTENT
    then allSPs.length else NUMBER_OF_SPS_FOR_HANDOFF_DIGITAL_CONTENT) =
      min NUMBER_OF_SPS_FOR_HANDOFF_DIGITAL_CONTENT allSPs.length := by
  split <;> omega

variable (own allSPs) in
theorem length_otherEndpoints_le : (otherEndpoints own allSPs).length ≤ allSPs.length :=
  (List.dedup_sublist _).length_le.trans (List.length_filter_le _ _)

variable (random : RandomValues allSPs.length)

/-- Each registered endpoint is drawn at some time. -/
theorem RandomValues.draws {sp : String} (hsp : sp ∈ allSPs) :
    ∃ k, allSPs[getRandomInt allSPs.length (random.value k)]? = some sp := by
  obtain ⟨index, hlt, rfl⟩ := List.getElem_of_mem hsp
  obtain ⟨k, -, hk⟩ := random.recurs index hlt 0
  use k
  rw [hk, List.getElem?_eq_getElem hlt]

/-- What the loop returns are distinct endpoints of others, as many as it wants. -/
theorem keptFrom_of_selectRandomSPs {random : ℕ → ℚ} {fuel : ℕ} {selected : List String}
    (h : selectRandomSPs own allSPs random fuel = some selected) :
    KeptFrom (· != own) allSPs selected ∧
      selected.length = min NUMBER_OF_SPS_FOR_HANDOFF_DIGITAL_CONTENT allSPs.length := by
  rw [selectRandomSPs, numberOfSps_eq] at h
  exact keptFrom_of_drawDistinct (fun _ _ hx ↦ List.mem_of_getElem? hx) h

/-- The loop ends just when there are as many other endpoints as it wants. -/
theorem exists_selectRandomSPs_iff :
    (∃ fuel selected, selectRandomSPs own allSPs random.value fuel = some selected) ↔
      min NUMBER_OF_SPS_FOR_HANDOFF_DIGITAL_CONTENT allSPs.length ≤
        (otherEndpoints own allSPs).length := by
  unfold selectRandomSPs
  rw [numberOfSps_eq]
  apply exists_drawDistinct_iff
  · exact fun _ _ hx ↦ List.mem_of_getElem? hx
  · exact fun _ hsp ↦ random.draws hsp

/-- `Math.random` always returns zero, which draws the only position of a list of one. -/
def onePosition : RandomValues 1 where
  value _ := 0
  nonneg _ := le_refl 0
  lt_one _ := zero_lt_one
  recurs index hlt k := ⟨k, le_refl k, by simp [getRandomInt]; omega⟩

end HandOff

open HandOff in
/-- The selection ends, with distinct endpoints of others as many as wanted or as there are, just
when there are as many of them as the list has entries, up to the bound. -/
theorem selectRandomSPs_selects_iff (own : String) (allSPs : List String)
    (random : RandomValues allSPs.length) :
    (∃ fuel selected, selectRandomSPs own allSPs random.value fuel = some selected ∧
      Selection own allSPs selected) ↔
      min NUMBER_OF_SPS_FOR_HANDOFF_DIGITAL_CONTENT allSPs.length ≤
        (otherEndpoints own allSPs).length := by
  rw [← exists_selectRandomSPs_iff random]
  constructor
  · intro ⟨fuel, selected, h, _⟩
    exact ⟨fuel, selected, h⟩
  · intro h
    have hothers := (exists_selectRandomSPs_iff random).mp h
    obtain ⟨fuel, selected, h⟩ := h
    obtain ⟨hkept, hlength⟩ := keptFrom_of_selectRandomSPs h
    refine ⟨fuel, selected, h, hkept.nodup, ?_, hkept.mem, ?_⟩
    · intro hown
      simpa using hkept.admissible own hown
    · have hle := length_otherEndpoints_le own allSPs
      omega

open HandOff in
/-- A node that is the only one registered keeps drawing itself. -/
theorem selectRandomSPs_not_selects :
    ¬ ∃ fuel selected, selectRandomSPs "https://cn1.example" ["https://cn1.example"]
        onePosition.value fuel = some selected ∧
      Selection "https://cn1.example" ["https://cn1.example"] selected := by
  intro ⟨fuel, selected, h, _⟩
  have hothers := (@exists_selectRandomSPs_iff "https://cn1.example" ["https://cn1.example"]
    onePosition).mp ⟨fuel, selected, h⟩
  revert hothers
  decide

end ColivingSpec

/-!
## A transcode that is handed off

`handOff` (digitalContentTranscodeHandoffManager.js) sends an upload to one content node after the
other until one has transcoded it, and fetches what came of it. When a file cannot be fetched or
written, the folder that the node reported is removed, and nobody waits for that. Nodes have one
storage path, so the folder is the one of the upload. The model has every await as a step, with
removals between the steps of `handOff`.
-/

namespace ColivingSpec

open Lib

namespace HandOff

/-! ### The disk -/

/-- The names from the root down. -/
abbrev Path := List String

/-- The path that a text denotes; no name is `.` or `..`. -/
def pathOf (text : String) : Path :=
  ((text.toList.splitOn '/').filter (· ≠ [])).map String.ofList

/-- The files and the directories that there are. -/
structure Disk where
  files : List Path
  directories : List Path
  deriving DecidableEq, Repr

namespace Disk

variable (disk : Disk) (path : Path)

/-- `pathExists`. -/
def pathExists : Bool :=
  disk.files.contains path || disk.directories.contains path

/-- `lstat`: whether the path is a directory. -/
def isDirectory : Except String Bool := do
  require (disk.pathExists path) "ENOENT"
  return disk.directories.contains path

/-- `readdir`. -/
def names (directory : Path) : List String :=
  (disk.files ++ disk.directories).filterMap fun path ↦
    if path.dropLast = directory then path.getLast? else none

/-- A stream opened for writing creates its file where there is none. -/
def create : Except String Disk := do
  require (disk.directories.contains path.dropLast) "ENOENT"
  require (!disk.directories.contains path) "EISDIR"
  return {
    disk with files := if disk.files.contains path then disk.files else disk.files ++ [path] }

/-- `unlink`. -/
def unlink : Except String Disk := do
  require (disk.files.contains path) "ENOENT"
  return { disk with files := disk.files.filter (· ≠ path) }

/-- `rmdir`. -/
def rmdir : Except String Disk := do
  require (disk.directories.contains path) "ENOENT"
  require (disk.names path).isEmpty "ENOTEMPTY"
  return { disk with directories := disk.directories.filter (· ≠ path) }

end Disk

/-! ### Removing a folder -/

/-- What `removeDigitalContentFolder` does next (fileManager.js, lines 464–516). -/
inductive Removing where
  | lstatFolder
  | readFolder
  | folder (files : List String)
  | unlinkFile (file : String) (files : List String)
  | readSegments (files : List String)
  | segments (segmentFiles files : List String)
  | unlinkSegment (segmentFile : String) (segmentFiles files : List String)
  deriving DecidableEq, Repr

/-- One await of `removeDigitalContentFolder`. -/
def removeStep (fileDir : Path) (disk : Disk) : Removing → Except String (Disk × Option Removing)
  | .lstatFolder => do
    let isDirectory ← disk.isDirectory fileDir
    require isDirectory "Expected directory input"
    return (disk, some .readFolder)
  | .readFolder => do
    require (disk.directories.contains fileDir) "ENOENT"
    return (disk, some (.folder (disk.names fileDir)))
  | .folder [] => do
    let disk ← disk.rmdir fileDir
    return (disk, none)
  | .folder (file :: files) => do
    if ← disk.isDirectory (fileDir ++ [file]) then
      require (file = "segments") "Unexpected subdirectory"
      return (disk, some (.readSegments files))
    else
      return (disk, some (.unlinkFile file files))
  | .unlinkFile file files => do
    let disk ← disk.unlink (fileDir ++ [file])
    return (disk, some (.folder files))
  | .readSegments files => do
    require (disk.directories.contains (fileDir ++ ["segments"])) "ENOENT"
    return (disk, some (.segments (disk.names (fileDir ++ ["segments"])) files))
  | .segments [] files => do
    let disk ← disk.rmdir (fileDir ++ ["segments"])
    return (disk, some (.folder files))
  | .segments (segmentFile :: segmentFiles) files => do
    let isDirectory ← disk.isDirectory (fileDir ++ ["segments", segmentFile])
    require (!isDirectory) "Unexpected subdirectory found in segments"
    return (disk, some (.unlinkSegment segmentFile segmentFiles files))
  | .unlinkSegment segmentFile segmentFiles files => do
    let disk ← disk.unlink (fileDir ++ ["segments", segmentFile])
    return (disk, some (.segments segmentFiles files))

/-! ### Handing off -/

/-- What `handOff` reads of the request (lines 55–63). -/
structure Request where
  fileDir : String
  fileName : String
  deriving DecidableEq, Repr

/-- Where the upload is (line 350). -/
def Request.original (req : Request) : Path := pathOf req.fileDir ++ [req.fileName]

variable (response : TranscodeResponse)

/-- The paths that files are written to, in order (lines 288–321); a segment may have none. -/
def pathsToWrite : List (Option Path) :=
  (List.range response.segmentFileNames.length).map
      (fun i ↦ (response.segmentFilePaths[i]?).map pathOf)
    ++ [some (pathOf response.transcodeFilePath), some (pathOf response.m3u8FilePath)]

/-- `localFilePaths` of a response whose files are written (lines 331–335). -/
def localFilePaths : LocalFilePaths where
  transcodeFilePath := some response.transcodeFilePath
  segmentFileNames := some response.segmentFileNames
  m3u8FilePath := some response.m3u8FilePath

/-- How far `handOff` is, with the nodes that are left. -/
inductive Phase where
  | selecting
  | sending (sp : String) (sps : List String)
  | polling (sp : String) (sps : List String)
  | fetching (sp : String) (sps : List String) (response : TranscodeResponse)
      (paths : List (Option Path))
  | returned (resp : LocalFilePaths)
  deriving DecidableEq, Repr

/-- The next node of the loop, or the end of it (line 84). -/
def nextSp : List String → Phase
  | [] => .returned .empty
  | sp :: sps => .sending sp sps

/-- The disk, how far `handOff` is, and the removals that are under way. -/
structure State where
  disk : Disk
  phase : Phase
  removals : List Removing
  deriving DecidableEq, Repr

/-- What can happen. A node may answer with nothing (line 255 without a match). -/
inductive Event where
  | selectRandomSPs (sps : Except String (List String))
  | sendDigitalContentToSp (uuid : Except String String)
  | pollForTranscode (resp : Except String (Option TranscodeResponse))
  | written
  | notWritten (created : Bool)
  | remove (index : ℕ) (fails : Bool)
  deriving DecidableEq, Repr

variable (req : Request)

/-- A file of the response is written, and with the last of them all are (lines 284–335). -/
def write (s : State) : Except String State :=
  match s.phase with
  | .fetching sp sps response (some path :: paths) => do
    let disk ← s.disk.create path
    match paths with
    | _ :: _ => return { s with disk, phase := .fetching sp sps response paths }
    | [] =>
      if (localFilePaths response).complete then
        return { s with disk, phase := .returned (localFilePaths response) }
      else return { s with disk, phase := nextSp sps }
  | _ => .error "nothing to write"

/-- The disk after a file is not written, or not to its end. -/
def partlyWritten (disk : Disk) : Option Path → Bool → Except String Disk
  | some path, true => disk.create path
  | _, _ => .ok disk

/-- A file is not fetched or not written: the folder of the response is removed, without waiting for
that, and the next node is tried (lines 322–328). -/
def giveUp (created : Bool) (s : State) : Except String State :=
  match s.phase with
  | .fetching _ sps _ (path :: _) => do
    let disk ← partlyWritten s.disk path created
    return { s with disk, phase := nextSp sps, removals := s.removals ++ [.lstatFolder] }
  | _ => .error "nothing to write"

/-- One await of a removal; an error ends it (lines 512–515). -/
def removeNext (index : ℕ) (fails : Bool) (s : State) : Except String State := do
  let removing ← (s.removals[index]?).elim (.error "no such removal") .ok
  match fails, removeStep (pathOf req.fileDir) s.disk removing with
  | false, .ok (disk, some next) => return { s with disk, removals := s.removals.set index next }
  | false, .ok (disk, none) => return { s with disk, removals := s.removals.eraseIdx index }
  | _, _ => return { s with removals := s.removals.eraseIdx index }

/-- `handOff` (lines 67–135), await by await. -/
def step (s : State) : Event → Except String State
  | .selectRandomSPs sps =>
    match s.phase, sps with
    | .selecting, .ok sps => .ok { s with phase := nextSp sps }
    | .selecting, .error _ => .ok { s with phase := .returned .empty }
    | _, _ => .error "not selecting"
  | .sendDigitalContentToSp uuid =>
    match s.phase, uuid with
    | .sending sp sps, .ok _ => do
      -- `createFormData` (lines 386–398)
      require (s.disk.pathExists req.original) "File does not exist at path"
      return { s with phase := .polling sp sps }
    | .sending _ sps, .error _ => .ok { s with phase := nextSp sps }
    | _, _ => .error "not sending"
  | .pollForTranscode resp =>
    match s.phase, resp with
    | .polling sp sps, .ok (some response) => do
      require (response.fileDir = req.fileDir) "nodes have one storage path"
      return { s with phase := .fetching sp sps response (pathsToWrite response) }
    | .polling _ sps, _ =>
      -- of no response no field can be read, and `removeDigitalContentFolder` refuses no folder
      .ok { s with phase := nextSp sps }
    | _, _ => .error "not polling"
  | .written => write s
  | .notWritten created => giveUp created s
  | .remove index fails => removeNext req index fails s

/-- An upload that is on the disk. -/
structure Upload where
  req : Request
  disk : Disk
  stored : req.original ∈ disk.files

/-- Before the hand-off. -/
def Upload.start (upload : Upload) : State := ⟨upload.disk, .selecting, []⟩

/-- Another node is going to be asked, or the fallback is. -/
def State.goesOn (s : State) : Prop :=
  match s.phase with
  | .sending _ _ => True
  | .returned resp => resp = .empty
  | _ => False

/-- A file of a response is not fetched or not written. -/
def Event.failsToWrite : Event → Bool
  | .notWritten _ => true
  | _ => false

/-! ### Without a failure to write -/

/-- The upload is there, and nothing is being removed. -/
structure State.Untouched (req : Request) (s : State) : Prop where
  stored : req.original ∈ s.disk.files
  idle : s.removals = []

variable {req} {s s' : State} {path : Path}

/-- A stream that is opened removes no file. -/
theorem mem_files_of_create {disk disk' : Disk} {other : Path}
    (h : disk.create other = .ok disk') (hmem : path ∈ disk.files) : path ∈ disk'.files := by
  obtain ⟨-, h⟩ := require_bind_eq_ok.mp h
  obtain ⟨-, h⟩ := require_bind_eq_ok.mp h
  cases h
  split
  · exact hmem
  · exact List.mem_append_left _ hmem

/-- A file that is written leaves the upload where it is. -/
theorem State.Untouched.write (hs : s.Untouched req) (h : write s = .ok s') :
    s'.Untouched req := by
  unfold HandOff.write at h
  split at h
  · obtain ⟨disk, hdisk, h⟩ := bind_eq_ok.mp h
    have hstored := mem_files_of_create hdisk hs.stored
    split at h
    · cases h
      exact ⟨hstored, hs.idle⟩
    · split at h
      · cases h
        exact ⟨hstored, hs.idle⟩
      · cases h
        exact ⟨hstored, hs.idle⟩
  · cases h

/-- Whatever else happens, the disk and the removals stay. -/
theorem State.Untouched.step (hs : s.Untouched req) {event : Event}
    (hwrites : event.failsToWrite = false) (h : step req s event = .ok s') :
    s'.Untouched req := by
  cases event with
  | selectRandomSPs sps =>
    simp only [HandOff.step] at h
    split at h
    · cases h
      exact ⟨hs.stored, hs.idle⟩
    · cases h
      exact ⟨hs.stored, hs.idle⟩
    · cases h
  | sendDigitalContentToSp | pollForTranscode =>
    simp only [HandOff.step] at h
    split at h
    · obtain ⟨-, h⟩ := require_bind_eq_ok.mp h
      cases h
      exact ⟨hs.stored, hs.idle⟩
    · cases h
      exact ⟨hs.stored, hs.idle⟩
    · cases h
  | written => exact hs.write h
  | notWritten created => cases hwrites
  | remove index fails =>
    -- there is no removal that could go on
    simp only [HandOff.step, removeNext, hs.idle] at h
    cases h

/-! ### A node whose segment is not fetched -/

/-- An upload in its folder, beside the folder of its segments. -/
def exampleUpload : Upload where
  req := ⟨"/file_storage/files/u1", "u1.mp3"⟩
  disk := {
    files := [["file_storage", "files", "u1", "u1.mp3"]]
    directories := [["file_storage"], ["file_storage", "files"], ["file_storage", "files", "u1"],
      ["file_storage", "files", "u1", "segments"]] }
  stored := by decide +kernel

/-- What a node reports of it. -/
def exampleResponse : TranscodeResponse where
  transcodeFilePath := "/file_storage/files/u1/u1-dl.mp3"
  segmentFileNames := ["segment00000.ts"]
  segmentFilePaths := ["/file_storage/files/u1/segments/segment00000.ts"]
  m3u8FilePath := "/file_storage/files/u1/u1.m3u8"
  fileName := "u1.mp3"
  fileDir := "/file_storage/files/u1"

/-- The segment is not fetched, and the removal goes as far as the upload before the next node is
asked, in vain. -/
def exampleEvents : List Event :=
  [.selectRandomSPs (.ok ["https://cn2.example", "https://cn3.example"]),
    .sendDigitalContentToSp (.ok "u1"), .pollForTranscode (.ok (some exampleResponse)),
    .notWritten false, .remove 0 false, .remove 0 false, .remove 0 false, .remove 0 false,
    .sendDigitalContentToSp (.error "File does not exist at path")]

end HandOff

open HandOff in
/-- As long as every file that a node transcoded is fetched and written, the upload stays on the
disk, however nodes fail to take it or to transcode it. -/
theorem handOff_keeps_upload (upload : Upload) (events : List Event)
    (h : Along (step upload.req) (fun _ event ↦ event.failsToWrite = false) upload.start events) :
    upload.req.original ∈ (replay (step upload.req) upload.start events).disk.files := by
  have hstart : upload.start.Untouched upload.req := ⟨upload.stored, rfl⟩
  have hreached : (replay (step upload.req) upload.start events).Untouched upload.req := by
    apply replay_invariant (State.Untouched upload.req) _ hstart h
    intro s event s' hs hwrites hstep
    exact hs.step hwrites hstep
  exact hreached.stored

open HandOff in
/-- One node does not take the upload, the other does not transcode it. -/
theorem handOff_keeps_upload_in_vain :
    exampleUpload.req.original ∈ (replay (step exampleUpload.req) exampleUpload.start
      [.selectRandomSPs (.ok ["https://cn2.example", "https://cn3.example"]),
        .sendDigitalContentToSp (.error "timeout"), .sendDigitalContentToSp (.ok "u1"),
        .pollForTranscode (.error "Transcode handoff failed")]).disk.files :=
  handOff_keeps_upload exampleUpload _ (by decide +kernel)

open HandOff in
/-- After a segment that was not fetched, nothing is left for the fallback. -/
theorem handOff_loses_upload :
    ¬ ∀ (upload : Upload) (events : List Event),
      (replay (step upload.req) upload.start events).goesOn →
        upload.req.original ∈ (replay (step upload.req) upload.start events).disk.files := by
  intro h
  have hphase : (replay (step exampleUpload.req) exampleUpload.start exampleEvents).phase =
      .returned .empty := by decide +kernel
  have hgoesOn : (replay (step exampleUpload.req) exampleUpload.start exampleEvents).goesOn := by
    rw [State.goesOn, hphase]
  have hlost : exampleUpload.req.original ∉
      (replay (step exampleUpload.req) exampleUpload.start exampleEvents).disk.files := by
    decide +kernel
  exact hlost (h exampleUpload exampleEvents hgoesOn)

end ColivingSpec
