/-!
# Files

## Main definitions

* `FileError` — why a file cannot be read.
* `FileContent` — what a path leads to.
* `textOfBytes?` — the text that bytes encode.
-/

namespace TachoPrint

/-- Why a file cannot be read. -/
inductive FileError where
  /-- There is no such file. -/
  | notFound
  /-- Reading is not permitted. -/
  | denied
  /-- The path goes on behind a file. -/
  | notDirectory
  /-- The path leads to a directory. -/
  | directory
  /-- The path, or a name in it, is too long. -/
  | nameTooLong
  /-- The bytes are no UTF-8 text. -/
  | notText
  /-- Another refusal of the system, with its number. -/
  | other (text : String) (code : Nat)
  deriving DecidableEq, Repr, Inhabited

namespace FileError

/-- A refusal of the system, as it is reported. -/
def systemMessage (text : String) (code : Nat) : String :=
  text ++ " (os error " ++ toString code ++ ")"

/-- The wording of a failed read. -/
def message : FileError → String
  | notFound => systemMessage "No such file or directory" 2
  | denied => systemMessage "Permission denied" 13
  | notDirectory => systemMessage "Not a directory" 20
  | directory => systemMessage "Is a directory" 21
  | nameTooLong => systemMessage "File name too long" 36
  | notText => "stream did not contain valid UTF-8"
  | other text code => systemMessage text code

/-- The failed read that the system reports by a number. -/
def ofCode (text : String) (code : Nat) : FileError :=
  match code with
  | 2 => notFound
  | 13 => denied
  | 20 => notDirectory
  | 21 => directory
  | 36 => nameTooLong
  | _ => other text code

end FileError

/-- What a path leads to: the bytes of a file, or a reason why there are none. -/
abbrev FileContent := Except FileError (List UInt8)

/-- The text that bytes encode in UTF-8. -/
def textOfBytes? (bytes : List UInt8) : Option String := String.fromUTF8? ⟨bytes.toArray⟩

end TachoPrint
