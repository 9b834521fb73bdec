import ByteMachine.Config.Basic
import ByteMachine.Config.Document

/-!
Configurations kept in files.  A file that holds nothing, or only an empty value, stands for the
defaults.  What the content of a file stands for is told by a reader of documents.
-/

namespace ByteMachine.Config

def readFailure (path : String) : ReadFailure → ConfigFailure
  | .malformed => .config (.invalidYaml path)
  | .undecodable => .undecodable
  | .other name message => .reader name message

def documentEntry (document : Document) (entries : List (Value × Nat)) (key : String) :
    Option Value :=
  (Value.get? entries key).map document.value

def Source.ofDocument (document : Document) (root : List (Value × Nat)) : Source where
  entry := documentEntry document root
  entryOf name :=
    match Value.get? root name with
    | none => .ok (documentEntry document [])
    | some number =>
      match document.entries? number with
      | some entries => .ok (documentEntry document entries)
      | none => .error .sectionShape

def ofContent (reader : DocumentReader) (path : String) (content : List UInt8) :
    Except ConfigFailure Config :=
  match reader content with
  | .error failure => .error (readFailure path failure)
  | .ok document =>
    match document.entries? document.root with
    | some root => ofSource (.ofDocument document root)
    | none => .error (.config .rootNotMapping)

def ofFile (reader : DocumentReader) (files : FileTree) (path : String) :
    Except ConfigFailure Config :=
  match (Value.text path).target with
  | .error e => .error (.target e)
  | .ok target =>
    match files.readTarget target with
    | .error e => .error (.config (.file path e))
    | .ok content => ofContent reader path content

theorem ofFile_read {files : FileTree} {path : String} {content : List UInt8}
    (hs : Text.firstStray? path = none) (hn : ¬path.contains '\x00')
    (hr : files.read (Text.bytes path) = .ok content) (reader : DocumentReader) :
    ofFile reader files path = ofContent reader path content := by
  rw [ofFile, Value.text_target hs hn]
  dsimp only [FileTree.readTarget]
  rw [hr]

end ByteMachine.Config
