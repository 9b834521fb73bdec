import ByteMachine.Hex
import ByteMachine.Image.Header
import ByteMachine.Notice
import ByteMachine.Target

/-!
Machine images: the program counter and all of memory, as they are kept in files.  Registers and
flags are not part of an image.
-/

namespace ByteMachine

structure Image where
  pc : Int
  memory : List UInt8
  deriving DecidableEq, Repr

inductive Image.LoadError where
  | target (error : TargetError)
  | file (path : String) (error : FileError)
  | shortHeader (path : String) (found : Nat)
  | badMagic (magic : Int)
  | sizeMismatch (found expected : Int)
  | pcBeyond (pc size : Int)
  | shortPayload (path : String) (found : Nat) (expected : Int)
  deriving DecidableEq, Repr

def Image.LoadError.message : Image.LoadError → String
  | target error => error.message
  | file path error => s!"{path}: {error.message}"
  | shortHeader path found =>
    s!"{path}: short header read ({found} of {Image.Header.byteCount} bytes)"
  | badMagic magic => s!"bad magic {Hex.lower magic.toNat}"
  | sizeMismatch found expected => s!"memory size mismatch {found} (expected {expected})"
  | pcBeyond pc size => s!"pc {pc} beyond memory {size}"
  | shortPayload path found expected =>
    s!"{path}: short payload read ({found} of {expected} bytes)"

inductive Image.SaveError where
  | header
  | target (error : TargetError)
  | file (path : String) (error : FileError)
  deriving DecidableEq, Repr

def Image.SaveError.message : Image.SaveError → String
  | header => "'I' format requires 0 <= number <= 4294967295"
  | target error => error.message
  | file path error => s!"[Errno {error.number}] {path}: {error.message}"

namespace Image

def size (image : Image) : Nat := image.memory.length

def header (image : Image) : Image.Header :=
  ⟨Image.Header.magicNumber, Image.Header.byteCount + image.size, image.size, image.pc⟩

def encode (image : Image) : Option (List UInt8) := do
  let header ← image.header.toBytes?
  return header ++ image.memory

/-- Accepts the header of an image for a memory of the given size.  The size field is not
binding. -/
def checkHeader (header : Image.Header) (memorySize : Int) : Except Image.LoadError Unit :=
  if header.magic ≠ Image.Header.magicNumber then .error (.badMagic header.magic)
  else if header.memorySize ≠ memorySize then
    .error (.sizeMismatch header.memorySize memorySize)
  else if header.memorySize ≤ header.pc then .error (.pcBeyond header.pc header.memorySize)
  else .ok ()

def headerNotices (header : Image.Header) : List Notice :=
  if header.size = Image.Header.byteCount + header.memorySize then []
  else [.imageSizeField header.size.toNat (Image.Header.byteCount + header.memorySize).toNat]

/-- Reads an image from the content of a file.  Bytes behind the image do not matter. -/
def decode (path : String) (content : List UInt8) (memorySize : Int) :
    List Notice × Except Image.LoadError Image :=
  let bytes := content.take Image.Header.byteCount
  match Image.Header.ofBytes? bytes with
  | none => ([], .error (.shortHeader path bytes.length))
  | some header =>
    match checkHeader header memorySize with
    | .error e => ([], .error e)
    | .ok () =>
      let payload := (content.drop Image.Header.byteCount).take header.memorySize.toNat
      (headerNotices header,
        if payload.length < header.memorySize then
          .error (.shortPayload path payload.length header.memorySize)
        else .ok ⟨header.pc, payload⟩)

def load (files : FileTree) (place : Value) (memorySize : Int) :
    List Notice × Except Image.LoadError Image :=
  let (notices, result) :=
    match place.target with
    | .error e => ([], .error (.target e))
    | .ok target =>
      match files.readTarget target with
      | .error e => ([], .error (.file place.shown e))
      | .ok content => decode place.shown content memorySize
  (.loadingImage place.shown :: notices, result)

def save (files : FileTree) (place : Value) (image : Image) :
    List Notice × Except Image.SaveError FileTree :=
  ([.savingImage place.shown],
    match image.encode with
    | none => .error .header
    | some content =>
      match place.target with
      | .error e => .error (.target e)
      | .ok target => (files.createTarget content target).mapError (.file place.shown ·))

end Image

end ByteMachine
