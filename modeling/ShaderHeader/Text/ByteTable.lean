/-!
# Byte tables

A byte table is a C array that is filled with bytes. They are written in hexadecimal, sixteen in a
row. A row that is full is followed by the start of another one, so the last row has fewer than
sixteen bytes and may be empty.
-/

namespace ShaderHeader

/-- How many bytes a row has. -/
def rowLength : Nat := 16

/-- Some full rows and the bytes that are left after them. -/
def splitRows : Nat → List UInt8 → List (List UInt8)
  | 0, bytes        => [bytes]
  | rows + 1, bytes => bytes.take rowLength :: splitRows rows (bytes.drop rowLength)

/-- No byte is lost and none is added. -/
@[simp] theorem flatten_splitRows (rows : Nat) (bytes : List UInt8) :
    (splitRows rows bytes).flatten = bytes := by
  induction rows generalizing bytes with
  | zero => simp [splitRows]
  | succ rows ih => rw [splitRows, List.flatten_cons, ih, List.take_append_drop]

@[simp] theorem length_splitRows (rows : Nat) (bytes : List UInt8) :
    (splitRows rows bytes).length = rows + 1 := by
  induction rows generalizing bytes with
  | zero => rfl
  | succ rows ih => rw [splitRows, List.length_cons, ih]

/-- A byte in C, with two digits in any case. -/
def byteLiteral (b : UInt8) : String :=
  String.ofList ['0', 'x', Nat.digitChar (b.toNat / 16), Nat.digitChar (b.toNat % 16), ',']

/-- A row is indented unless it is empty. -/
def rowLine : List UInt8 → String
  | []  => ""
  | row => "    " ++ String.join (row.map byteLiteral)

/-- An array of bytes, under the C type of its elements. -/
structure ByteTable where
  elementType : String
  name : String
  bytes : List UInt8
  deriving DecidableEq

/-- The definition of the array. -/
def ByteTable.lines (t : ByteTable) : List String :=
  s!"static const {t.elementType} {t.name}[{t.bytes.length}] = \x7b" ::
    (splitRows (t.bytes.length / rowLength) t.bytes).map rowLine ++ ["\x7d;"]

/-! ### What is embedded -/

/-- The bytes of a text in UTF-8. -/
def utf8 (text : String) : List UInt8 :=
  text.toList.flatMap String.utf8EncodeChar

@[simp] theorem length_utf8 (text : String) : (utf8 text).length = text.utf8ByteSize := by
  rw [utf8, ← String.size_toByteArray, ← String.utf8Encode_toList, List.utf8Encode,
    List.size_toByteArray]

/-- The bytes of a text and the zero that ends it in C. -/
def terminated (text : String) : List UInt8 :=
  utf8 text ++ [0]

namespace ByteTable

/-- Embeds a text, with its end. -/
def ofText (name text : String) : ByteTable :=
  ⟨"char", name, terminated text⟩

/-- Embeds bytecode as it is. -/
def ofBytecode (name : String) (data : List UInt8) : ByteTable :=
  ⟨"uint8_t", name, data⟩

end ByteTable

end ShaderHeader
