import FileSync.Basic
import FileSync.Library.Reader

/-!
# Packets

`sf::Packet` as its users see it: insertions append to the data, extractions consume it from
the front, and an extraction that would run past the end marks the packet invalid. How the
bytes of an integer are laid out is a parameter.
-/

namespace FileSync

open Reader

/-- A layout of fixed-width integers that is read as it was written. -/
structure Layout where
  put : Nat → Nat → Bytes
  get : Bytes → Nat
  length_put : ∀ width n, (put width n).length = width
  get_put : ∀ width n, n < 256 ^ width → get (put width n) = n

/-- An `sf::Packet`: its bytes, how many of them have been extracted, and whether all extractions
    so far succeeded. -/
structure Packet where
  data : Bytes
  readPos : Nat
  isValid : Bool

/-- A new packet. -/
def Packet.empty : Packet := { data := [], readPos := 0, isValid := true }

/-- A packet that was received with the given data. -/
def Packet.received (data : Bytes) : Packet := { data, readPos := 0, isValid := true }

/-- `sf::Packet::append` -/
def Packet.append (packet : Packet) (bytes : Bytes) : Packet :=
  { packet with data := packet.data ++ bytes }

section

variable (layout : Layout)

/-! ## Insertions -/

/-- `packet << n` for an integer of `width` bytes. -/
def Packet.insertInt (packet : Packet) (width n : Nat) : Packet :=
  packet.append (layout.put width n)

/-- `packet << n` for an `sf::Uint8`. -/
def Packet.insertUInt8 (packet : Packet) (n : UInt8) : Packet :=
  packet.insertInt layout 1 n.toNat

/-- `packet << n` for an `sf::Uint16`. -/
def Packet.insertUInt16 (packet : Packet) (n : UInt16) : Packet :=
  packet.insertInt layout 2 n.toNat

/-- `packet << n` for an `sf::Uint32`. -/
def Packet.insertUInt32 (packet : Packet) (n : UInt32) : Packet :=
  packet.insertInt layout 4 n.toNat

/-- `packet << n` for an `sf::Uint64`. -/
def Packet.insertUInt64 (packet : Packet) (n : UInt64) : Packet :=
  packet.insertInt layout 8 n.toNat

/-- `packet << size` for a `std::size_t`, whose width depends on the platform. -/
def Packet.insertSizeT (platform : Platform) (packet : Packet) (size : Nat) : Packet :=
  packet.insertInt layout platform.sizeTBytes (platform.toSizeT size)

/-- `packet << b` for a `bool`, which takes a byte. -/
def Packet.insertBool (packet : Packet) (b : Bool) : Packet :=
  packet.insertUInt8 layout (if b then 1 else 0)

/-- `packet << s` for a `std::string`. -/
def Packet.insertString (packet : Packet) (s : Bytes) : Packet :=
  let length := UInt32.ofNat s.length
  (packet.insertUInt32 layout length).append (s.take length.toNat)

/-- `packet << s` for a `std::wstring`: every character takes 32 bits. -/
def Packet.insertWString (packet : Packet) (s : WString) : Packet :=
  s.foldl (fun packet c => packet.insertUInt32 layout c.toUInt32)
    (packet.insertUInt32 layout (UInt32.ofNat s.length))

/-! ## Extractions -/

/-- Whether `size` more bytes can be extracted; if not, the packet becomes invalid. -/
def checkSize (size : Nat) : StateM Packet Bool := fun packet =>
  let isValid := packet.isValid && decide (packet.readPos + size ≤ packet.data.length)
  (isValid, { packet with isValid })

/-- The next `size` bytes; the size has been checked. -/
def take (size : Nat) : StateM Packet Bytes := fun packet =>
  ((packet.data.drop packet.readPos).take size, { packet with readPos := packet.readPos + size })

/-- `packet >> n` for an integer of `width` bytes, if there is one. -/
def extractInt (width : Nat) : StateM Packet (Option Nat) := do
  if ← checkSize width then
    let bytes ← take width
    return some (layout.get bytes)
  else
    return none

/-- `packet >> n`: a failed extraction leaves the variable as it was. -/
def extractUInt8 (n : UInt8) : StateM Packet UInt8 :=
  (fun read => (read.map UInt8.ofNat).getD n) <$> extractInt layout 1

/-- `packet >> n` for an `sf::Uint16`. -/
def extractUInt16 (n : UInt16) : StateM Packet UInt16 :=
  (fun read => (read.map UInt16.ofNat).getD n) <$> extractInt layout 2

/-- `packet >> n` for an `sf::Uint32`. -/
def extractUInt32 (n : UInt32) : StateM Packet UInt32 :=
  (fun read => (read.map UInt32.ofNat).getD n) <$> extractInt layout 4

/-- `packet >> n` for an `sf::Uint64`. -/
def extractUInt64 (n : UInt64) : StateM Packet UInt64 :=
  (fun read => (read.map UInt64.ofNat).getD n) <$> extractInt layout 8

/-- `packet >> b`: any byte but 0 is true. -/
def extractBool (b : Bool) : StateM Packet Bool :=
  (fun read => (read.map fun value => UInt8.ofNat value != 0).getD b) <$> extractInt layout 1

/-- `packet >> s` for a `std::string`, which is cleared first. -/
def extractString : StateM Packet Bytes := do
  let length ← extractUInt32 layout 0
  if length.toNat > 0 then
    if ← checkSize length.toNat then take length.toNat
    else return []
  else return []

/-- `packet >> s` for a `std::wstring`, which is cleared first. -/
def extractWString : StateM Packet WString := do
  let length ← extractUInt32 layout 0
  if length.toNat > 0 then
    if ← checkSize (length.toNat * 4) then
      loop (fun s => do
        let character ← extractUInt32 layout 0
        return s ++ [character.toUInt16]) length.toNat []
    else return []
  else return []

end

/-! ## What insertions append -/

/-- The bytes of a `std::string` in a packet. -/
def stringBytes (layout : Layout) (s : Bytes) : Bytes := layout.put 4 s.length ++ s

/-- The bytes of a `std::wstring` in a packet. -/
def wstringBytes (layout : Layout) (s : WString) : Bytes :=
  layout.put 4 s.length ++ s.flatMap fun c => layout.put 4 c.toNat

/-- What a packet still has to offer. -/
def Packet.left (packet : Packet) : Option Bytes :=
  if packet.isValid = true ∧ packet.readPos ≤ packet.data.length then
    some (packet.data.drop packet.readPos)
  else none

theorem left_eq_some {packet : Packet} {bytes : Bytes} (h : packet.left = some bytes) :
    packet.isValid = true ∧ packet.readPos + bytes.length = packet.data.length ∧
      packet.data.drop packet.readPos = bytes := by
  unfold Packet.left at h
  split at h
  · rename_i readable
    cases h
    refine ⟨readable.1, ?_, rfl⟩
    rw [List.length_drop]
    omega
  · cases h

/-- A reader behind a size check, when what it reads is at least that long. -/
theorem yields_checked {α : Type} {size : Nat} {reader other : StateM Packet α} {symbols : Bytes}
    {value : α} (enough : size ≤ symbols.length)
    (body : Yields Packet.left reader symbols value) :
    Yields Packet.left (do if ← checkSize size then reader else other) symbols value := by
  rintro ⟨data, readPos, isValid⟩ rest h
  obtain ⟨rfl, position, -⟩ := left_eq_some h
  simp only [List.length_append] at position
  have fits : readPos + size ≤ data.length := by omega
  have checked : checkSize size ⟨data, readPos, true⟩ = (true, ⟨data, readPos, true⟩) := by
    simp [checkSize, fits]
  obtain ⟨packet', read, left'⟩ := body _ rest h
  refine ⟨packet', ?_, left'⟩
  change (if (checkSize size ⟨data, readPos, true⟩).1 then reader else other)
    (checkSize size ⟨data, readPos, true⟩).2 = _
  rw [checked]
  exact read

theorem take_yields (bytes : Bytes) : Yields Packet.left (take bytes.length) bytes bytes := by
  intro packet rest h
  obtain ⟨valid, position, remaining⟩ := left_eq_some h
  rw [List.length_append] at position
  refine ⟨{ packet with readPos := packet.readPos + bytes.length }, ?_, ?_⟩
  · simp [take, remaining]
  · rw [Packet.left, if_pos ⟨valid, by simp only; omega⟩]
    simp only [← List.drop_drop, remaining, List.drop_left]

section

variable (layout : Layout)

theorem extractInt_yields {width n : Nat} (bound : n < 256 ^ width) :
    Yields Packet.left (extractInt layout width) (layout.put width n) (some n) := by
  have taken : Yields Packet.left (take width) (layout.put width n) (layout.put width n) := by
    have whole := take_yields (layout.put width n)
    rwa [layout.length_put] at whole
  refine yields_checked (Nat.le_of_eq (layout.length_put width n).symm) (taken.bind_pure ?_)
  rw [layout.get_put width n bound]
  exact Yields.pure _

theorem extractUInt8_yields (old n : UInt8) :
    Yields Packet.left (extractUInt8 layout old) (layout.put 1 n.toNat) n := by
  have read := (extractInt_yields layout (show n.toNat < 256 ^ 1 from n.toNat_lt)).map
    fun read => (read.map UInt8.ofNat).getD old
  rwa [Option.map_some, Option.getD_some, UInt8.ofNat_toNat] at read

theorem extractUInt16_yields (old n : UInt16) :
    Yields Packet.left (extractUInt16 layout old) (layout.put 2 n.toNat) n := by
  have read := (extractInt_yields layout (show n.toNat < 256 ^ 2 from n.toNat_lt)).map
    fun read => (read.map UInt16.ofNat).getD old
  rwa [Option.map_some, Option.getD_some, UInt16.ofNat_toNat] at read

theorem extractUInt32_yields (old n : UInt32) :
    Yields Packet.left (extractUInt32 layout old) (layout.put 4 n.toNat) n := by
  have read := (extractInt_yields layout (show n.toNat < 256 ^ 4 from n.toNat_lt)).map
    fun read => (read.map UInt32.ofNat).getD old
  rwa [Option.map_some, Option.getD_some, UInt32.ofNat_toNat] at read

theorem extractUInt64_yields (old n : UInt64) :
    Yields Packet.left (extractUInt64 layout old) (layout.put 8 n.toNat) n := by
  have read := (extractInt_yields layout (show n.toNat < 256 ^ 8 from n.toNat_lt)).map
    fun read => (read.map UInt64.ofNat).getD old
  rwa [Option.map_some, Option.getD_some, UInt64.ofNat_toNat] at read

theorem extractBool_yields (old b : Bool) :
    Yields Packet.left (extractBool layout old) (layout.put 1 (if b then 1 else 0)) b := by
  have small : (if b then 1 else 0) < 256 ^ 1 := by cases b <;> decide
  have read := (extractInt_yields layout small).map
    fun read => (read.map fun value => UInt8.ofNat value != 0).getD old
  cases b <;> exact read

theorem toNat_ofNat_length {length : Nat} (bound : length < 2 ^ 32) :
    (UInt32.ofNat length).toNat = length := by
  rw [UInt32.toNat_ofNat', Nat.mod_eq_of_lt bound]

/-- A length that fits 32 bits is read as it was. -/
theorem extractLength_yields {length : Nat} (bound : length < 2 ^ 32) :
    Yields Packet.left (extractUInt32 layout 0) (layout.put 4 length) (UInt32.ofNat length) := by
  have read := extractUInt32_yields layout 0 (UInt32.ofNat length)
  rwa [toNat_ofNat_length bound] at read

theorem extractString_yields {s : Bytes} (bound : s.length < 2 ^ 32) :
    Yields Packet.left (extractString layout) (stringBytes layout s) s := by
  refine (extractLength_yields layout bound).bind ?_
  rw [toNat_ofNat_length bound]
  split
  · exact yields_checked (Nat.le_refl _) (take_yields s)
  · rename_i none
    rw [List.length_eq_zero_iff.mp (by omega : s.length = 0)]
    exact Yields.pure _

theorem length_characters (s : WString) :
    (s.flatMap fun c => layout.put 4 c.toNat).length = s.length * 4 := by
  induction s with
  | nil => rfl
  | cons c s ih =>
    rw [List.flatMap_cons, List.length_append, layout.length_put, ih, List.length_cons]
    omega

theorem extractWString_yields {s : WString} (bound : s.length < 2 ^ 32) :
    Yields Packet.left (extractWString layout) (wstringBytes layout s) s := by
  refine (extractLength_yields layout bound).bind ?_
  rw [toNat_ofNat_length bound]
  split
  · refine yields_checked (Nat.le_of_eq (length_characters layout s).symm) ?_
    have round (acc : WString) (c : UInt16) (_ : c ∈ s) :
        Yields Packet.left (do
          let character ← extractUInt32 layout 0
          return acc ++ [character.toUInt16]) (layout.put 4 c.toNat) (acc ++ [c]) := by
      have read := (extractUInt32_yields layout 0 c.toUInt32).map
        fun character => acc ++ [character.toUInt16]
      rwa [UInt16.toNat_toUInt32, UInt16.toUInt16_toUInt32] at read
    have characters := Yields.loop round []
    rwa [List.foldl_append_eq_append, ← List.flatMap_def, List.flatMap_singleton',
      List.nil_append] at characters
  · rename_i none
    rw [List.length_eq_zero_iff.mp (by omega : s.length = 0)]
    exact Yields.pure _

/-! ## The data after insertions -/

@[simp] theorem insertInt_data (packet : Packet) (width n : Nat) :
    (packet.insertInt layout width n).data = packet.data ++ layout.put width n := rfl

@[simp] theorem insertUInt8_data (packet : Packet) (n : UInt8) :
    (packet.insertUInt8 layout n).data = packet.data ++ layout.put 1 n.toNat := rfl

@[simp] theorem insertUInt16_data (packet : Packet) (n : UInt16) :
    (packet.insertUInt16 layout n).data = packet.data ++ layout.put 2 n.toNat := rfl

@[simp] theorem insertUInt32_data (packet : Packet) (n : UInt32) :
    (packet.insertUInt32 layout n).data = packet.data ++ layout.put 4 n.toNat := rfl

@[simp] theorem insertUInt64_data (packet : Packet) (n : UInt64) :
    (packet.insertUInt64 layout n).data = packet.data ++ layout.put 8 n.toNat := rfl

@[simp] theorem insertBool_data (packet : Packet) (b : Bool) :
    (packet.insertBool layout b).data = packet.data ++ layout.put 1 (if b then 1 else 0) := by
  cases b <;> rfl

/-- Insertions that each append some bytes append all of them. -/
theorem foldl_data {ι : Type} {insert : Packet → ι → Packet} {bytes : ι → Bytes} {items : List ι}
    (one : ∀ packet, ∀ item ∈ items, (insert packet item).data = packet.data ++ bytes item) :
    ∀ packet : Packet, (items.foldl insert packet).data = packet.data ++ items.flatMap bytes := by
  induction items with
  | nil => simp
  | cons item items ih =>
    intro packet
    rw [List.foldl_cons, ih fun packet other member => one packet other (by simp [member]),
      one packet item (by simp), List.flatMap_cons, List.append_assoc]

theorem insertString_data (packet : Packet) {s : Bytes} (bound : s.length < 2 ^ 32) :
    (packet.insertString layout s).data = packet.data ++ stringBytes layout s := by
  simp only [Packet.insertString, Packet.append, insertUInt32_data, toNat_ofNat_length bound,
    List.take_length, stringBytes, List.append_assoc]

/-- The bytes of a `std::wstring`, with its length reduced to 32 bits. -/
theorem insertWString_data (packet : Packet) (s : WString) :
    (packet.insertWString layout s).data = packet.data ++ layout.put 4 (s.length % 2 ^ 32) ++
      s.flatMap fun c => layout.put 4 c.toNat := by
  rw [Packet.insertWString, foldl_data fun packet c _ => insertUInt32_data layout packet c.toUInt32,
    insertUInt32_data, UInt32.toNat_ofNat']
  simp only [UInt16.toNat_toUInt32]

end

/-! ## Network byte order -/

/-- The last `width` bytes of a number, the most significant one first. -/
def putBigEndian : Nat → Nat → Bytes
  | 0, _ => []
  | width + 1, n => putBigEndian width (n / 256) ++ [UInt8.ofNat n]

/-- The number whose bytes these are, the most significant one first. -/
def getBigEndian (bytes : Bytes) : Nat := bytes.foldl (fun n byte => 256 * n + byte.toNat) 0

theorem length_putBigEndian (width : Nat) : ∀ n, (putBigEndian width n).length = width := by
  induction width with
  | zero => exact fun _ => rfl
  | succ width ih => simp [putBigEndian, ih]

theorem getBigEndian_put (width : Nat) : ∀ n, n < 256 ^ width →
    getBigEndian (putBigEndian width n) = n := by
  induction width with
  | zero =>
    intro n bound
    rw [Nat.pow_zero, Nat.lt_one_iff] at bound
    rw [bound]
    rfl
  | succ width ih =>
    intro n bound
    have high := ih (n / 256) (Nat.div_lt_of_lt_mul (by rwa [Nat.pow_succ'] at bound))
    unfold getBigEndian at high ⊢
    rw [putBigEndian, List.foldl_append, high]
    simp only [List.foldl_cons, List.foldl_nil, UInt8.toNat_ofNat']
    omega

/-- The order of bytes on the network. -/
def bigEndian : Layout where
  put := putBigEndian
  get := getBigEndian
  length_put := length_putBigEndian
  get_put := getBigEndian_put

end FileSync
