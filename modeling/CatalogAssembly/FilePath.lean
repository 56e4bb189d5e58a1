/-!
# Paths of files

A path is any bytes: those of a text as a rule, and others where a variable of the environment
holds them. Such a path can be followed and joined like any other. It is shown as a text in which
a mark stands for each run of bytes that could have become a character and did not.
-/
namespace CatalogAssembly

@[ext]
structure FilePath where
  bytes : ByteArray

namespace FilePath

instance : DecidableEq FilePath := fun p q =>
  decidable_of_decidable_of_iff
    (show p.bytes.data = q.bytes.data ↔ p = q by rw [FilePath.ext_iff, ByteArray.ext_iff])

def ofText (path : String) : FilePath := ⟨path.toUTF8⟩

instance : Coe String FilePath := ⟨ofText⟩

def text? (p : FilePath) : Option String := String.fromUTF8? p.bytes

@[simp] theorem text?_ofText (path : String) : (ofText path).text? = some path := by
  have hvalid : path.toUTF8.IsValidUTF8 := path.isValidUTF8
  rw [text?, ofText, String.fromUTF8?, dif_pos hvalid]
  rfl

def slash : UInt8 := '/'.toUInt8

def isAbsolute (p : FilePath) : Bool := p.bytes.data[0]? = some slash

/-- A path followed by another one, which stands alone when it is absolute. -/
def join (base path : FilePath) : FilePath :=
  if path.isAbsolute || base.bytes.isEmpty then path
  else if base.bytes.data.back? = some slash then ⟨base.bytes ++ path.bytes⟩
  else ⟨base.bytes.push slash ++ path.bytes⟩

/-- The bytes that may follow the first one of a character, each from a least one to a last. -/
def followers (first : UInt8) : List (UInt8 × UInt8) :=
  let any := (0x80, 0xBF)
  if first < 0xC2 then []
  else if first < 0xE0 then [any]
  else if first = 0xE0 then [(0xA0, 0xBF), any]
  else if first = 0xED then [(0x80, 0x9F), any]
  else if first < 0xF0 then [any, any]
  else if first = 0xF0 then [(0x90, 0xBF), any, any]
  else if first < 0xF4 then [any, any, any]
  else if first = 0xF4 then [(0x80, 0x8F), any, any]
  else []

/-- Bytes in runs, each as long as it may still become a character; `run` has begun and may go on
with the bytes in `ranges`. -/
def runs (run : List UInt8) (ranges : List (UInt8 × UInt8)) : List UInt8 → List (List UInt8)
  | [] => [run]
  | b :: bs =>
    match ranges with
    | (least, last) :: more =>
      if least ≤ b && b ≤ last then runs (run ++ [b]) more bs
      else run :: runs [b] (followers b) bs
    | [] => run :: runs [b] (followers b) bs

/-- The characters in some bytes, and a mark for each run that is none. -/
def readable : List UInt8 → String
  | [] => ""
  | b :: bs =>
    String.join ((runs [b] (followers b) bs).map fun run =>
      (String.fromUTF8? ⟨run.toArray⟩).getD "\uFFFD")

/-- The path as a text. -/
def display (p : FilePath) : String := p.text?.getD (readable p.bytes.toList)

instance : Repr FilePath := ⟨fun p _ => repr p.display⟩

end FilePath

end CatalogAssembly
