import Mathlib.Data.Int.Notation
import Mathlib.Data.Nat.Notation

/-!
# Rows of a content node's database

The tables behind a user's data, with the columns that syncing and blacklisting read. A row
belongs to the user whose `cnodeUserUUID` it carries.
-/

namespace ColivingSpec

/-- A wallet's public key. -/
abbrev Wallet := String

/-- An identifier of a row, in its written form. -/
abbrev UUID := String

/-- A content identifier. -/
abbrev CID := String

/-- `File.Types`: `file.js:105–111`. The column is a string, so a row can carry another value. -/
inductive FileType where
  | digital_content
  | copy320
  | dir
  | image
  | metadata
  | other (value : String)
  deriving DecidableEq, Repr

/-- `metadataJSON`: the segments it lists, if it lists any, and the rest of its text. -/
structure MetadataJSON where
  digital_content_segments : Option (List (Option CID))
  rest : String
  deriving DecidableEq, Repr

/-- `SourceTableTypesObj`: `clockRecord.js:4–9`. -/
inductive SourceTable where
  | ColivingUser
  | DigitalContent
  | File
  | ContentList
  deriving DecidableEq, Repr

/-- A row of `ClockRecords`: `clockRecord.js:11–37`. -/
structure ClockRecord where
  cnodeUserUUID : UUID
  clock : ℤ
  sourceTable : SourceTable
  deriving DecidableEq, Repr

/-- A row of `Files`: `file.js:4–66`. -/
structure File where
  fileUUID : UUID
  cnodeUserUUID : UUID
  digitalContentBlockchainId : Option ℕ
  multihash : CID
  sourceFile : Option String
  fileName : Option String
  dirMultihash : Option CID
  storagePath : String
  type : Option FileType
  clock : ℤ
  skipped : Bool
  deriving DecidableEq, Repr

/-- A row of `DigitalContents`: `digitalContent.js:4–33`. -/
structure DigitalContent where
  cnodeUserUUID : UUID
  clock : ℤ
  blockchainId : ℕ
  metadataFileUUID : UUID
  metadataJSON : MetadataJSON
  coverArtFileUUID : Option UUID
  deriving DecidableEq, Repr

/-- A row of `ColivingUsers`: `colivingsUser.js:3–36`. -/
structure ColivingUser where
  cnodeUserUUID : UUID
  clock : ℤ
  blockchainId : ℕ
  metadataFileUUID : UUID
  metadataJSON : MetadataJSON
  coverArtFileUUID : Option UUID
  profilePicFileUUID : Option UUID
  deriving DecidableEq, Repr

namespace File

/-- `File.DigitalContentTypes`: `file.js:113`. -/
def DigitalContentTypes : List FileType := [.digital_content, .copy320]

/-- `File.NonDigitalContentTypes`: `file.js:114`. -/
def NonDigitalContentTypes : List FileType := [.dir, .image, .metadata]

/-- The type is among the given ones; a null type is among none. -/
def typeIn (f : File) (types : List FileType) : Bool :=
  match f.type with
  | some type => types.contains type
  | none => false

end File

end ColivingSpec
