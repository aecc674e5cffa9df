import ChatGames.HostBuffers

/-!
# Sequences of fields

A message is written and read field by field, each by a call for its own type. What the reader has
still to read begins with the bytes of the fields that have still to come.
-/

namespace ChatGames

/-- The type that a call of `integer` or `string` is for. -/
inductive FieldType where
  | integer (T : IntType)
  | string (SizeType : IntType)

/-- A field that can be written: the integers are of their type, and the size of a string fits a
type that the server reads strings with. -/
inductive Field where
  | integer (T : IntType) (val : Fin (256 ^ T.sizeof))
  | string (SizeType : IntType) (hsize : SizeType ≠ .uint32) (str : Bytes)
      (hstr : str.length < 256 ^ SizeType.sizeof)

inductive FieldValue where
  | integer (val : Nat)
  | string (str : Bytes)
deriving DecidableEq

def FieldType.read (host : ByteOrder) (T : FieldType) (rbuf : BufferReader) :
    Except Fault (FieldValue × BufferReader) :=
  match T with
  | .integer T => (rbuf.hostInteger host T).map fun read => (.integer read.1, read.2)
  | .string SizeType => (rbuf.hostString host SizeType).map fun read => (.string read.1, read.2)

def readAll (host : ByteOrder) : List FieldType → BufferReader →
    Except Fault (List FieldValue × BufferReader)
  | [], rbuf => .ok ([], rbuf)
  | T :: types, rbuf => do
      let (value, rbuf) ← T.read host rbuf
      let (values, rbuf) ← readAll host types rbuf
      .ok (value :: values, rbuf)

namespace Field

def type : Field → FieldType
  | .integer T _ => .integer T
  | .string SizeType _ _ _ => .string SizeType

def value : Field → FieldValue
  | .integer _ val => .integer val
  | .string _ _ str _ => .string str

def write (host : ByteOrder) (field : Field) (wbuf : BufferWriter) : BufferWriter :=
  match field with
  | .integer T val => wbuf.hostInteger host T val
  | .string SizeType _ str _ => wbuf.hostString host SizeType str

/-- The bytes of a field, whatever the host. -/
def bigEndian : Field → Bytes
  | .integer T val => toBigEndian T.sizeof val
  | .string SizeType _ str _ => LengthPrefix.frame SizeType.sizeof str

theorem buffer_write (host : ByteOrder) (field : Field) (wbuf : BufferWriter) :
    (field.write host wbuf).buffer = wbuf.buffer ++ field.bigEndian := by
  cases field with
  | integer T val =>
      rw [write, BufferWriter.hostInteger_eq]
      rfl
  | string SizeType hsize str hstr =>
      rw [write, BufferWriter.hostString_eq]
      exact List.append_assoc _ _ _

/-- A reader that stands before a field reads it. -/
theorem exists_read (host : ByteOrder) (field : Field) {rbuf : BufferReader} (h : rbuf.Inside)
    {more : Bytes} (hrest : rbuf.rest = field.bigEndian ++ more) :
    ∃ rbuf', field.type.read host rbuf = .ok (field.value, rbuf') ∧ rbuf'.Inside ∧
      rbuf'.rest = more := by
  cases field with
  | integer T val =>
      have hlength := toBigEndian_length T.sizeof val
      have hwidth : T.sizeof ≤ rbuf.rest.length := by
        rw [hrest, bigEndian, List.length_append, hlength]
        exact Nat.le_add_right _ _
      obtain ⟨rbuf', hread, hinside, hrest'⟩ := BufferReader.bytes_of_le h hwidth
      refine ⟨rbuf', ?_, hinside, ?_⟩
      · rw [type, FieldType.read, BufferReader.hostInteger_eq, BufferReader.integer, hread, hrest,
          bigEndian, List.take_left' hlength]
        change Except.ok (FieldValue.integer (ofBigEndian _), _) = _
        rw [ofBigEndian_toBigEndian_of_lt val.isLt]
        rfl
      · rw [hrest', hrest, bigEndian, List.drop_left' hlength]
  | string SizeType hsize str hstr =>
      obtain ⟨rbuf', hread, hinside, hrest'⟩ := h.string_of_rest hstr hrest
      refine ⟨rbuf', ?_, hinside, hrest'⟩
      rw [type, FieldType.read, BufferReader.hostString_eq host hsize, hread]
      rfl

end Field

def writeAll (host : ByteOrder) (fields : List Field) (wbuf : BufferWriter) : BufferWriter :=
  fields.foldl (fun wbuf field => field.write host wbuf) wbuf

theorem buffer_writeAll (host : ByteOrder) (fields : List Field) (wbuf : BufferWriter) :
    (writeAll host fields wbuf).buffer = wbuf.buffer ++ fields.flatMap Field.bigEndian := by
  induction fields generalizing wbuf with
  | nil => exact (List.append_nil _).symm
  | cons field fields ih =>
      have hrest := ih (field.write host wbuf)
      rw [field.buffer_write, List.append_assoc] at hrest
      exact hrest

theorem exists_readAll (host : ByteOrder) (fields : List Field) {rbuf : BufferReader}
    (h : rbuf.Inside) {more : Bytes} (hrest : rbuf.rest = fields.flatMap Field.bigEndian ++ more) :
    ∃ rbuf', readAll host (fields.map Field.type) rbuf = .ok (fields.map Field.value, rbuf') ∧
      rbuf'.Inside ∧ rbuf'.rest = more := by
  induction fields generalizing rbuf with
  | nil => exact ⟨rbuf, rfl, h, hrest⟩
  | cons field fields ih =>
      rw [List.flatMap_cons, List.append_assoc] at hrest
      obtain ⟨rbuf₁, hread, hinside₁, hrest₁⟩ := field.exists_read host h hrest
      obtain ⟨rbuf₂, hreads, hinside₂, hrest₂⟩ := ih hinside₁ hrest₁
      refine ⟨rbuf₂, ?_, hinside₂, hrest₂⟩
      rw [List.map_cons, readAll, hread]
      change (do
        let (values, rbuf) ← readAll host (fields.map Field.type) rbuf₁
        Except.ok (field.value :: values, rbuf)) = _
      rw [hreads]
      rfl

/-- **Reading undoes writing.** What one host writes is the big-endian bytes of the fields, and
another reads the same values from it, all inside the buffer and up to its end. -/
theorem readAll_writeAll (writer reader : ByteOrder) (fields : List Field) :
    (writeAll writer fields .empty).toString = fields.flatMap Field.bigEndian ∧
      ∃ rbuf, readAll reader (fields.map Field.type)
          ⟨(writeAll writer fields .empty).toString, 0⟩ = .ok (fields.map Field.value, rbuf) ∧
        rbuf.Inside ∧ rbuf.remaining = 0 := by
  have hbytes : (writeAll writer fields .empty).toString = fields.flatMap Field.bigEndian :=
    buffer_writeAll writer fields .empty
  refine ⟨hbytes, ?_⟩
  rw [hbytes]
  have hinside : (BufferReader.mk (fields.flatMap Field.bigEndian) 0).Inside := Nat.zero_le _
  have hrest : (BufferReader.mk (fields.flatMap Field.bigEndian) 0).rest =
      fields.flatMap Field.bigEndian ++ [] := (List.append_nil _).symm
  obtain ⟨rbuf, hread, hinside', hrest'⟩ := exists_readAll reader fields hinside hrest
  refine ⟨rbuf, hread, hinside', ?_⟩
  have hlength := hinside'.rest_length
  rw [hrest', List.length_nil] at hlength
  rw [BufferReader.remaining]
  omega

end ChatGames
