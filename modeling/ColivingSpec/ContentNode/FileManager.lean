import ColivingSpec.ContentNode.Models
import Mathlib.Logic.Function.Basic

/-!
# Files on disk

How a content node stores a file under its CID: from a buffer, from the gateways it is given, or
from any node of the network. What the outside does in a call (which gateway answers and with
which bytes, where a write breaks off, which system call fails) is an argument of the call.
-/

namespace ColivingSpec

/-- The path of a file. -/
abbrev Path := String

/-- The contents of a file. -/
abbrev Bytes := List UInt8

/-- `LibsUtils.fileHasher.generateNonImageCid`: the CID of some contents. -/
class FileHasher where
  generateNonImageCid : Bytes → CID

export FileHasher (generateNonImageCid)

/-- The files of a node. -/
abbrev Disk := Path → Option Bytes

namespace DiskManager

/-- `extractCIDsFromFSPath`: `diskManager.js:167–172`. -/
structure CIDsOfPath where
  isDir : Bool
  outer : CID
  inner : Option CID
  deriving DecidableEq, Repr

/-- `Qm[a-zA-Z0-9]{44}` at the head, and what follows it. -/
def cidAtHead (chars : List Char) : Option (CID × List Char) :=
  if chars.take 2 = ['Q', 'm'] ∧ 46 ≤ chars.length ∧
      ((chars.drop 2).take 44).all Char.isAlphanum = true then
    some (String.ofList (chars.take 46), chars.drop 46)
  else
    none

/-- `CID_DIRECTORY_REGEX`: `diskManager.js:10–11`, with the first match. -/
def matchDirectory : List Char → Option CIDsOfPath
  | [] => none
  | c :: rest =>
    match if c = '/' then cidAtHead rest else none with
    | none => matchDirectory rest
    | some found =>
      let rest := if found.2.head? = some '/' then found.2.tail else found.2
      let inner := (cidAtHead rest).map Prod.fst
      some ⟨inner.isSome, found.1, inner⟩

/-- `diskManager.js:173–197`. -/
def extractCIDsFromFSPath (fsPath : Path) : Option CIDsOfPath := matchDirectory fsPath.toList

/-- `cid.slice(-4, -1)`. -/
def directoryID (cid : CID) : String :=
  String.ofList ((cid.toList.drop (cid.length - 4)).take (cid.length - 1 - (cid.length - 4)))

/-- `diskManager.js:50–79` for a valid CID. -/
def computeFilePath (storagePath : String) (cid : CID) : Path :=
  storagePath ++ "/files/" ++ directoryID cid ++ "/" ++ cid

end DiskManager

/-! ### Writes and reads -/

/-- How a write ends: all is written, the file is not opened, or the write breaks off. -/
inductive WriteOutcome where
  | written
  | refused
  | cut (length : ℕ)
  deriving DecidableEq, Repr

namespace Disk

variable (disk : Disk) (path : Path)

/-- `fs.writeFile`, and `_streamFileToDiskHelper` (`utils.js:292–298`): the file is truncated when
it is opened. The flag tells whether the call resolves. -/
def write (content : Bytes) : WriteOutcome → Disk × Bool
  | .written => (Function.update disk path (some content), true)
  | .refused => (disk, false)
  | .cut length => (Function.update disk path (some (content.take length)), false)

/-- `fs.unlink`, and `removeFile` (`fileManager.js:695–702`) where it does not throw. -/
def remove : Disk := Function.update disk path none

/-- The CID of the file, when it can be read. -/
def cidOf [FileHasher] (readable : Bool) : Option CID :=
  if readable then (disk path).map generateNonImageCid else none

end Disk

/-- `EMPTY_FILE_CID`: `fileManager.js:21`. -/
def EMPTY_FILE_CID : CID := "QmbFMke1KXqnYyBBWxB74N4c5SBnJMVAiMNRcGu6x1AwQH"

/-- What a request for a file is answered with; a stream ends up on disk as far as it comes. -/
inductive Response where
  | failed
  | noData
  | data (body : Bytes) (write : WriteOutcome)
  deriving DecidableEq, Repr

variable [FileHasher]

/-! ### Searching the network -/

/-- A registered node, and what happens when it is asked for the file. -/
structure NodeLookup where
  endpoint : String
  response : Response
  createDir : Bool
  readable : Bool
  unlink : Bool
  deriving DecidableEq, Repr

/-- What happens in a search. An `attemptedStateFix` that is an error stands for any rejection
before the first request. -/
structure NetworkSearch where
  attemptedStateFix : Except String Bool
  contentNodes : List NodeLookup

/-- `utils.js:149–186`: one node. -/
def lookupNode (filePath : Path) (cid : CID) (node : NodeLookup) (disk : Disk) : Disk × Bool :=
  match node.response with
  | .failed => (disk, false)
  | .noData => (disk, false)
  | .data body write =>
    if node.createDir then
      let stored := disk.write filePath body write
      if stored.2 then
        match stored.1.cidOf filePath node.readable with
        | none => (stored.1, false)
        | some expectedCID =>
          if cid ≠ expectedCID then
            (if node.unlink then stored.1.remove filePath else stored.1, false)
          else
            (stored.1, true)
      else
        (stored.1, false)
    else
      (disk, false)

/-- The loop of `utils.js:146–187`. -/
def lookupNodes (filePath : Path) (cid : CID) : List NodeLookup → Disk → Disk × Bool
  | [], disk => (disk, false)
  | node :: nodes, disk =>
    let looked := lookupNode filePath cid node disk
    if looked.2 then looked else lookupNodes filePath cid nodes looked.1

/-- `utils.js:115–190`. Nothing found, `undefined` and `false` are one result. -/
def findCIDInNetwork (filePath : Path) (cid : CID) (excludeList : List String)
    (search : NetworkSearch) (disk : Disk) : Disk × Except String Bool :=
  match search.attemptedStateFix with
  | .error reason => (disk, .error reason)
  | .ok true => (disk, .ok false)
  | .ok false =>
    let contentNodesFiltered :=
      search.contentNodes.filter fun node ↦ !excludeList.contains node.endpoint
    let looked := lookupNodes filePath cid contentNodesFiltered disk
    (looked.1, .ok looked.2)

/-! ### Saving a file by its CID -/

/-- What is returned: the path for a file that is there already, `true`, or `false`. -/
inductive SaveResult where
  | alreadyStored (path : Path)
  | saved
  | failed
  deriving DecidableEq, Repr

/-- Callers take the path and `true` for success. -/
def SaveResult.success : SaveResult → Bool
  | .failed => false
  | _ => true

/-- What happens in one try. A gateway is known by its place in the list and its URL. -/
structure SaveAttempt where
  mkdir : Bool
  access : Bool
  gateway : ℕ → String → Response
  network : NetworkSearch
  stat : Bool
  readable : Bool
  remove : Bool

/-- The file a caller asks for. -/
structure SaveRequest where
  multihash : CID
  expectedStoragePath : Path
  gatewaysToTry : List String
  fileNameForImage : Option String
  digitalContentId : Option ℕ
  deriving DecidableEq, Repr

/-- `endpoint.replace(/\/$/, '')`. -/
def withoutTrailingSlash (endpoint : String) : String :=
  if endpoint.toList.getLast? = some '/' then String.ofList endpoint.toList.dropLast else endpoint

namespace SaveRequest

variable (request : SaveRequest)

/-- `fileManager.js:138–143`. -/
def plainUrl (endpoint : String) : String :=
  let baseUrl := withoutTrailingSlash endpoint ++ "/ipfs/" ++ request.multihash
  match request.digitalContentId with
  | none | some 0 => baseUrl
  | some id => baseUrl ++ "?digitalContentId=" ++ toString id

/-- `fileManager.js:138–205`: a file in a directory is asked for by the name of its image. -/
def gatewayUrlsMapped : List String :=
  match DiskManager.extractCIDsFromFSPath request.expectedStoragePath, request.fileNameForImage with
  | some found, some fileName =>
    if found.isDir ∧ fileName ≠ "" then
      request.gatewaysToTry.map fun endpoint ↦
        withoutTrailingSlash endpoint ++ "/ipfs/" ++ found.outer ++ "/" ++ fileName
    else
      request.gatewaysToTry.map request.plainUrl
  | _, _ => request.gatewaysToTry.map request.plainUrl

end SaveRequest

/-- `fileManager.js:253–288`: the first gateway that answers with data. -/
def raceGateways (gateway : ℕ → String → Response) : ℕ → List String → Option (Bytes × WriteOutcome)
  | _, [] => none
  | index, url :: urls =>
    match gateway index url with
    | .data body write => some (body, write)
    | .failed => raceGateways gateway (index + 1) urls
    | .noData => raceGateways gateway (index + 1) urls

variable (request : SaveRequest) (attempt : SaveAttempt)

/-- `fileManager.js:236–319`. A write that breaks off leaves what it wrote. -/
def fetchFromGateways (disk : Disk) : Disk × Bool :=
  match raceGateways attempt.gateway 0 request.gatewayUrlsMapped with
  | none => (disk, false)
  | some response => disk.write request.expectedStoragePath response.1 response.2

/-- `fileManager.js:236–360`: the gateways first, then the network. -/
def fetchFile (disk : Disk) : Disk × Bool :=
  let fetched := fetchFromGateways request attempt disk
  if fetched.2 then
    fetched
  else
    let found := findCIDInNetwork request.expectedStoragePath request.multihash
      request.gatewaysToTry attempt.network fetched.1
    (found.1, found.2.toOption.getD false)

/-- `fileManager.js:43–60` and `fileManager.js:374–410`: the file is not empty, but for the CID of
the empty file, and its contents have the CID. -/
def verifyContents (cid : CID) (path : Path) (stat readable : Bool) (disk : Disk) : Bool :=
  match disk path with
  | none => false
  | some content =>
    stat && !(content.isEmpty && cid ≠ EMPTY_FILE_CID) && disk.cidOf path readable == some cid

/-- `fileManager.js:119–434` up to the retry. `none` stands for contents that did not match and
were removed. -/
def saveFileAttempt (disk : Disk) : Disk × Option SaveResult :=
  let path := request.expectedStoragePath
  if !attempt.mkdir then
    (disk, some .failed)
  else if attempt.access && (disk path).isSome then
    (disk, some (.alreadyStored path))
  else
    let fetched := fetchFile request attempt disk
    if !fetched.2 then
      (fetched.1, some .failed)
    else if verifyContents request.multihash path attempt.stat attempt.readable fetched.1 then
      (fetched.1, some .saved)
    else if attempt.remove then
      (fetched.1.remove path, none)
    else
      (fetched.1, some .failed)

/-- `fileManager.js:119–434`, with the retries that are left. -/
def saveFileForMultihashToFS (request : SaveRequest) (attempts : ℕ → SaveAttempt) :
    ℕ → Disk → Disk × SaveResult
  | 0, disk =>
    let tried := saveFileAttempt request (attempts 0) disk
    (tried.1, tried.2.getD .failed)
  | numRetries + 1, disk =>
    let tried := saveFileAttempt request (attempts (numRetries + 1)) disk
    match tried.2 with
    | some result => (tried.1, result)
    | none => saveFileForMultihashToFS request attempts numRetries tried.1

/-! ### Saving a buffer -/

/-- What happens in one try. -/
structure BufferAttempt where
  ensureDirPathExists : Bool
  write : WriteOutcome
  stat : Bool
  readable : Bool
  remove : Bool
  deriving DecidableEq, Repr

/-- `fileManager.js:26–71` for an authenticated user, with the retries that are left. The hasher's
CID is valid. -/
def saveFileFromBufferToDisk (storagePath : String) (buffer : Bytes) (attempts : ℕ → BufferAttempt) :
    ℕ → Disk → Disk × Except String (CID × Path)
  | numRetries, disk =>
    let attempt := attempts numRetries
    let cid := generateNonImageCid buffer
    let dstPath := DiskManager.computeFilePath storagePath cid
    if !attempt.ensureDirPathExists then
      (disk, .error "Error making directory")
    else
      let stored := disk.write dstPath buffer attempt.write
      if !stored.2 then
        (stored.1, .error "write failed")
      else if verifyContents cid dstPath attempt.stat attempt.readable stored.1 then
        (stored.1, .ok (cid, dstPath))
      else if !attempt.remove then
        (stored.1, .error "unlink failed")
      else
        match numRetries with
        | 0 => (stored.1.remove dstPath,
          .error "saveFileFromBufferToDisk - Error during content verification for multihash")
        | numRetries + 1 =>
          saveFileFromBufferToDisk storagePath buffer attempts numRetries (stored.1.remove dstPath)

end ColivingSpec
