import CompanyBackend.Files.Store

/-!
# Uploads

Two routes add rows to the attachments. The file server hashes the bytes, shares the object if
there is one for them, and otherwise processes, encrypts and stores them. The API stores the
bytes of an asset next to the documents and adds a row for it that has no hash.

Everything that does not touch a store (checks, processing, encryption) is done by an upload on
its own: `prepare` says what comes out of it. The libraries that it uses are parameters.
-/

namespace Company

open Request

abbrev FileTask (α : Type) := Request FileStore Failure α

namespace FileTask

variable {α : Type}

def fetch (f : FileStore → Result α) : FileTask α := attempt fun store => (f store).mapError .error

def update (f : FileStore → Result FileStore) : FileTask Unit :=
  write fun store => (f store).mapError .error

def modify (f : FileStore → FileStore) : FileTask Unit := write fun store => .ok (f store)

end FileTask

inductive Tag where
  | attachments | avatars | backgrounds | icons | banners | emojis
  deriving DecidableEq, Repr

def Tag.name : Tag → String
  | attachments => "attachments"
  | avatars => "avatars"
  | backgrounds => "backgrounds"
  | icons => "icons"
  | banners => "banners"
  | emojis => "emojis"

structure UploadPayload where
  fileName : Option String
  contents : List UInt8

def Metadata.isImage : Metadata → Bool
  | image _ _ => true
  | _ => false

/-- Configuration, limits and libraries, and what is drawn or read for one
upload. -/
structure AutumnServices where
  minFileSize : Nat
  blockedMimeTypes : List String
  scanMimeTypes : List String
  defaultBucket : String
  /-- The limit of a user for a tag. -/
  sizeLimit : User → String → Option Nat
  sha256 : List UInt8 → String
  determineMimeType : (buf : List UInt8) → (fileName : String) → String
  generateMetadata : (file : List UInt8) → (mimeType : String) → Metadata
  stripMetadata : List UInt8 → Metadata → (mimeType : String) → Result (List UInt8 × Metadata)
  isMalware : List UInt8 → Result Bool
  newId : String
  createdAt : Timestamp
  /-- The text of the nonce that the encryption draws. -/
  nonce : String
  nonce_ne : nonce ≠ ""

/-- Cipher texts end with an authentication tag. -/
def authenticationTagSizeBytes : Nat := 16

/-- An upload that has passed the checks, with the record of the processed file
or the reason why there is none. -/
structure Upload where
  id : String
  tag : String
  filename : String
  uploaderId : String
  hash : String
  processed : Result FileHash
  nonce : String
  own : ∀ record, processed = .ok record → record.id = hash ∧ record.path = hash ∧ record.iv = ""
  nonce_ne : nonce ≠ ""

namespace AutumnServices

variable (services : AutumnServices)

def record (buf processed : List UInt8) (metadata : Metadata) (mimeType : String) : FileHash where
  id := services.sha256 buf
  processedHash := services.sha256 processed
  createdAt := services.createdAt
  bucketId := services.defaultBucket
  path := services.sha256 buf
  iv := ""
  metadata := metadata
  contentType := mimeType
  size := .ofNat (processed.length + authenticationTagSizeBytes)

/-- Files that are nothing in particular are scanned, if the scanner is to look
at their type. -/
def scan (processed : List UInt8) (metadata : Metadata) (mimeType : String) : Result Bool :=
  if metadata == .file &&
      (services.scanMimeTypes.isEmpty || services.scanMimeTypes.contains mimeType) then
    services.isMalware processed
  else .ok false

def process (buf : List UInt8) (metadata : Metadata) (mimeType : String) : Result FileHash := do
  let (processed, metadata) ← services.stripMetadata buf metadata mimeType
  let malware ← services.scan processed metadata mimeType
  if malware then .error .internalError
  else .ok (services.record buf processed metadata mimeType)

theorem process_own {buf : List UInt8} {metadata : Metadata} {mimeType : String}
    {record : FileHash} (made : services.process buf metadata mimeType = .ok record) :
    record.id = services.sha256 buf ∧ record.path = services.sha256 buf ∧ record.iv = "" := by
  obtain ⟨⟨processed, metadata⟩, _, scanned⟩ := bind_eq_ok.mp made
  obtain ⟨malware, _, returned⟩ := bind_eq_ok.mp scanned
  cases malware with
  | true => cases returned
  | false =>
    cases returned
    exact ⟨rfl, rfl, rfl⟩

/-- The checks of an upload, and what it is going to store. -/
def prepare (user : User) (tag : Tag) (payload : UploadPayload) : Except Failure Upload := do
  let filename := payload.fileName.getD "unnamed-file"
  let buf := payload.contents
  if buf.length < services.minFileSize then throw (.error .fileTooSmall)
  match services.sizeLimit user tag.name with
  | none => throw (.panic "size limit")
  | some limit =>
    if limit < buf.length then throw (.error (.fileTooLarge limit))
    let mimeType := services.determineMimeType buf filename
    if services.blockedMimeTypes.contains mimeType then throw (.error .fileTypeNotAllowed)
    let metadata := services.generateMetadata buf mimeType
    -- Only attachments may be something else than images.
    if tag != .attachments && !metadata.isImage then throw (.error .fileTypeNotAllowed)
    return {
      id := services.newId
      tag := tag.name
      filename
      uploaderId := user.id
      hash := services.sha256 buf
      processed := services.process buf metadata mimeType
      nonce := services.nonce
      own := fun _ => services.process_own
      nonce_ne := services.nonce_ne }

end AutumnServices

open FileTask

namespace Upload

variable (upload : Upload)

/-- The row that refers to a record. -/
def file (record : FileHash) (now : Timestamp) : File :=
  record.intoFile now upload.id upload.tag upload.filename upload.uploaderId

def insertFile (record : FileHash) (store : FileStore) : Result FileStore :=
  store.insertAttachment (upload.file record store.now)

/-- Store the object of a record, commit its nonce, and add the row. -/
def commitObject (record : FileHash) : FileTask Unit := do
  modify fun store => store.putObject (record.bucketId, record.id) upload.nonce
  modify fun store => store.setAttachmentHashNonce record.id upload.nonce
  update (upload.insertFile record)

/-- Process the bytes, and store the object of a record that is new or has no
nonce. -/
def storeObject (existing : Option FileHash) : FileTask Unit := do
  let record ← fetch fun _ => upload.processed
  onlyIf existing.isNone <| update fun store => store.insertAttachmentHash record
  upload.commitObject record

/-- Share the object that is stored for the bytes, or store one. -/
def store : FileTask Unit := do
  let existing ← attempt fun store => .ok (store.fetchAttachmentHash upload.hash).toOption
  match existing with
  | some record =>
    if record.iv != "" then update (upload.insertFile record)
    else upload.storeObject existing
  | none => upload.storeObject existing

end Upload

/-- `POST /<tag>` of the file server. -/
def uploadFile (services : AutumnServices) (user : User) (tag : Tag) (payload : UploadPayload) :
    FileTask String := do
  let upload ← attempt fun _ => services.prepare user tag payload
  upload.store
  return upload.id

structure AssetServices where
  ulid : String
  /-- The dimensions of an image. -/
  blobSize : List UInt8 → Option (Nat × Nat)

def allowedImageMimeTypes : List String :=
  ["image/png", "image/jpeg", "image/gif", "image/webp", "image/svg+xml"]

def extensionForMime : String → String
  | "image/png" => "png"
  | "image/jpeg" => "jpg"
  | "image/gif" => "gif"
  | "image/webp" => "webp"
  | "image/svg+xml" => "svg"
  | "video/mp4" => "mp4"
  | "video/webm" => "webm"
  | "video/quicktime" => "mov"
  | "audio/mpeg" => "mp3"
  | "audio/ogg" => "ogg"
  | "audio/wav" => "wav"
  | "application/pdf" => "pdf"
  | "application/zip" => "zip"
  | "text/plain" => "txt"
  | _ => "bin"

/-- The size limit of a category, and whether its assets have to be images. -/
def assetCategory : String → Option (Nat × Bool)
  | "avatars" => some (4000000, true)
  | "icons" => some (2500000, true)
  | "banners" => some (6000000, true)
  | "emojis" => some (500000, true)
  | "backgrounds" => some (6000000, true)
  | "attachments" => some (20000000, false)
  | _ => none

def mimeStartsWith (start mime : String) : Bool := start.toList.isPrefixOf mime.toList

variable (services : AssetServices)

def AssetServices.inferMetadata (mime : String) (data : List UInt8) : Metadata :=
  match if mimeStartsWith "image/" mime then services.blobSize data else none with
  | some (width, height) => .image (.ofNat width) (.ofNat height)
  | none => if mimeStartsWith "text/" mime then .text else .file

variable (user : User) (category : String) (filename : Option String) (data : List UInt8)
variable (mime : String)

/-- The row that is added for an asset. It has no hash. -/
def AssetServices.assetFile (now : Timestamp) : File where
  id := services.ulid
  tag := category
  filename := (filename.filter fun name => name != "").getD
    (services.ulid ++ "." ++ extensionForMime mime)
  uploadedAt := some now
  uploaderId := some user.id
  metadata := services.inferMetadata mime data
  contentType := mime
  size := .ofNat data.length
  userId := some user.id

/-- `POST /assets/<category>` of the API. The bytes of the asset are not
modelled. -/
def uploadAsset : FileTask String :=
  match assetCategory category with
  | none => fail (.error .invalidOperation)
  | some (maxBytes, identityOnly) => do
    ensure (!identityOnly || allowedImageMimeTypes.contains mime) (.error (.failedValidation
      "Invalid image type. Must be PNG, JPEG, GIF, WebP, or SVG."))
    ensure (decide (data.length ≤ maxBytes)) (.error (.fileTooLarge maxBytes))
    update fun store => store.insertAttachment
      (services.assetFile user category filename data mime store.now)
    return services.ulid

inductive ImageFormat where
  | jpeg | png | avif | tiff
deriving DecidableEq

def ImageFormat.ofMime : String → Option ImageFormat
  | "image/jpeg" => some .jpeg
  | "image/png" => some .png
  | "image/avif" => some .avif
  | "image/tiff" => some .tiff
  | _ => none

/-- The libraries that read and write images. An image has a width and a
height. -/
structure ImageLibrary (Image : Type) where
  decode : List UInt8 → Result Image
  /-- The value of the tag in the EXIF data, or 0. -/
  orientation : List UInt8 → Nat
  encode : Image → ImageFormat → Result (List UInt8)
  fliph : Image → Image
  rotate90 : Image → Image
  rotate180 : Image → Image
  rotate270 : Image → Image
  size : Image → Int64 × Int64
  size_encode : ∀ {image format bytes}, encode image format = .ok bytes →
    (decode bytes).map size = .ok (size image)
  size_fliph : ∀ image, size (fliph image) = size image
  size_rotate90 : ∀ image, size (rotate90 image) = (size image).swap
  size_rotate180 : ∀ image, size (rotate180 image) = size image
  size_rotate270 : ∀ image, size (rotate270 image) = (size image).swap

namespace ImageLibrary

variable {Image : Type} (library : ImageLibrary Image)

def orient (rotation : Nat) (image : Image) : Image :=
  match rotation with
  | 2 => library.fliph image
  | 3 => library.rotate180 image
  | 4 => library.fliph (library.rotate180 image)
  | 5 => library.fliph (library.rotate90 image)
  | 6 => library.rotate90 image
  | 7 => library.fliph (library.rotate270 image)
  | 8 => library.rotate270 image
  | _ => image

/-- The dimensions in the metadata. -/
def orientedSize (rotation : Nat) (size : Int64 × Int64) : Int64 × Int64 :=
  match rotation with
  | 2 | 4 | 5 | 7 => size.swap
  | _ => size

/-- `strip_metadata` of a file with the metadata of an image. -/
def stripMetadata (buf : List UInt8) (size : Int64 × Int64) (mime : String) :
    Result (List UInt8 × (Int64 × Int64)) :=
  match ImageFormat.ofMime mime with
  | some format => do
      let image ← library.decode buf
      let rotation := library.orientation buf
      let bytes ← library.encode (library.orient rotation image) format
      return (bytes, orientedSize rotation size)
  | none => .ok (buf, size)

/-- The pixels and the metadata are rotated alike but for flips and plain
rotations. -/
theorem size_orient_iff (rotation : Nat) (image : Image) :
    library.size (library.orient rotation image) = orientedSize rotation (library.size image) ↔
      rotation ∉ [2, 4, 6, 8] ∨ (library.size image).1 = (library.size image).2 := by
  have square : (library.size image).swap = library.size image ↔
      (library.size image).1 = (library.size image).2 := by
    rw [Prod.ext_iff]
    exact ⟨And.right, fun same => ⟨same.symm, same⟩⟩
  rw [← square]
  rcases rotation with _ | _ | _ | _ | _ | _ | _ | _ | _ | rotation <;>
    simp [orient, orientedSize, library.size_fliph, library.size_rotate90, library.size_rotate180,
      library.size_rotate270, eq_comm]

/-- The size that is recorded is that of the image that is written exactly if
the orientation is none of those for which only one of the two is turned, or the
image is a square. -/
theorem stripped_size_iff {buf bytes : List UInt8} {mime : String} {image : Image}
    {size : Int64 × Int64} (reencoded : ImageFormat.ofMime mime ≠ none)
    (decoded : library.decode buf = .ok image)
    (stripped : library.stripMetadata buf (library.size image) mime = .ok (bytes, size)) :
    (library.decode bytes).map library.size = .ok size ↔
      library.orientation buf ∉ [2, 4, 6, 8] ∨ (library.size image).1 = (library.size image).2 := by
  obtain ⟨format, format_eq⟩ := Option.ne_none_iff_exists'.mp reencoded
  rw [stripMetadata, format_eq, decoded] at stripped
  obtain ⟨_, ⟨⟩, written⟩ := Request.bind_eq_ok.mp stripped
  obtain ⟨_, encoded, ⟨⟩⟩ := Request.bind_eq_ok.mp written
  rw [library.size_encode encoded, Except.ok.injEq, size_orient_iff]

def ofPairs : ImageLibrary Bool where
  decode bytes := .ok (bytes ≠ [0])
  orientation bytes := (bytes.headD 0).toNat
  encode row _ := .ok [if row then 1 else 0]
  fliph row := row
  rotate90 row := !row
  rotate180 row := row
  rotate270 row := !row
  size row := if row then (2, 1) else (1, 2)
  size_encode := by
    rintro row format bytes ⟨⟩
    cases row <;> rfl
  size_fliph _ := rfl
  size_rotate90 := by decide
  size_rotate180 _ := rfl
  size_rotate270 := by decide

theorem transposed_size_swapped : (ofPairs.decode [0]).map ofPairs.size = .ok (1, 2) :=
  (@stripped_size_iff _ ofPairs [5] _ "image/png" _ _ (by decide) rfl rfl).mpr (.inl (by decide))

/-- An image that is turned when it is written again keeps the size from
before. -/
theorem rotated_size_kept :
    ofPairs.stripMetadata [6] (2, 1) "image/png" = .ok ([0], (2, 1)) ∧
      (ofPairs.decode [0]).map ofPairs.size = .ok (1, 2) :=
  ⟨rfl, rfl⟩

end ImageLibrary

end Company
