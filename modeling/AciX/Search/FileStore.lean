import AciX.Context

/-!
# Results in the file system

`ReadFromFileSystem` copies the file of a query into a `MemoryStream` and returns its buffer, which
is not cut to the length of the stream: it has 256 bytes at least, and is doubled when it is too
small. So the bytes come back with zeros after them, unless their number is one at which a buffer is
full (`returns_written_iff`).
-/

namespace AciX.FileStore

open List

section Stream

def blockSize : ℕ := 81920

def maxByteArrayLength : ℕ := 0x7FFFFFC7

theorem blockSize_eq : blockSize = 81920 := rfl

theorem maxByteArrayLength_eq : maxByteArrayLength = 2147483591 := rfl

attribute [irreducible] blockSize maxByteArrayLength

structure MemoryStream where
  buffer : List UInt8 := []
  length : ℕ := 0

/-- The size that `EnsureCapacity` gives a buffer of size `capacity`, which is too small for
`value` bytes. -/
def newCapacity (capacity value : ℕ) : ℕ :=
  if maxByteArrayLength < capacity * 2 then max value maxByteArrayLength
  else max (max value 256) (capacity * 2)

namespace MemoryStream

variable (ms : MemoryStream)

def ensureCapacity (value : ℕ) : MemoryStream :=
  if ms.buffer.length < value then
    { ms with buffer := ms.buffer.rightpad (newCapacity ms.buffer.length value) 0 }
  else ms

def write (bytes : List UInt8) : MemoryStream :=
  let ms := ms.ensureCapacity (ms.length + bytes.length)
  { buffer := ms.buffer.take ms.length ++ bytes ++ ms.buffer.drop (ms.length + bytes.length)
    length := ms.length + bytes.length }

end MemoryStream

def copyTo : List UInt8 → MemoryStream → MemoryStream
  | [], ms => ms
  | b :: bytes, ms =>
    copyTo ((b :: bytes).drop blockSize) (ms.write ((b :: bytes).take blockSize))
termination_by bytes => bytes.length
decreasing_by
  rw [length_drop, blockSize_eq, length_cons]
  omega

end Stream

section Files

def hex : ℕ → ℕ → Text
  | 0, _ => []
  | width + 1, n => hex width (n / 16) ++ [Nat.digitChar (n % 16)]

def folder (root : Text) (queryID : Int32) : Text :=
  root ++ '\\' :: hex 2 ((queryID >>> 24) &&& 0xff).toBitVec.toNat ++
    '\\' :: hex 2 ((queryID >>> 16) &&& 0xff).toBitVec.toNat ++
    '\\' :: hex 2 ((queryID >>> 8) &&& 0xff).toBitVec.toNat

def iwsCacheFilePath (root : Text) (queryID : Int32) : Text :=
  folder root queryID ++ '\\' :: hex 8 queryID.toBitVec.toNat ++
    '_' :: intText queryID.toInt ++ ".json.gzip".toList

/-- The files by their paths, which the file system compares without regard to letter case. -/
abbrev Files := Text → Option (List UInt8)

variable (root : Text) (files : Files)

def filePath (queryID : Int32) : Text := toLower (iwsCacheFilePath root queryID)

def writeToFileSystem (queryID : Int32) (compressedData : List UInt8) : Files :=
  Function.update files (filePath root queryID) (some compressedData)

def readFromFileSystem (queryID : Int32) : Option (List UInt8) :=
  (files (filePath root queryID)).map fun bytes => (copyTo bytes {}).buffer

def writeAll (writes : List (Int32 × List UInt8)) : Files :=
  writes.foldl (fun files w => writeToFileSystem root files w.1 w.2) files

def lastWritten (queryID : Int32) (writes : List (Int32 × List UInt8)) : Option (List UInt8) :=
  (writes.reverse.find? fun w => w.1 = queryID).map (·.2)

end Files

section Capacity

variable {ms : MemoryStream} {bytes data : List UInt8} {length capacity : ℕ}

structure MemoryStream.Holds (ms : MemoryStream) (data : List UInt8) : Prop where
  length : ms.length = data.length
  bytes : data <+: ms.buffer

theorem holds_empty : MemoryStream.Holds {} [] := ⟨rfl, nil_prefix⟩

theorem length_ensureCapacity (ms : MemoryStream) (value : ℕ) :
    (ms.ensureCapacity value).buffer.length =
      if ms.buffer.length < value then newCapacity ms.buffer.length value
      else ms.buffer.length := by
  unfold MemoryStream.ensureCapacity
  split_ifs with h
  · have hle : ms.buffer.length ≤ newCapacity ms.buffer.length value := by
      unfold newCapacity
      split_ifs <;> omega
    rw [length_rightpad]
    exact max_eq_left hle
  · rfl

theorem holds_ensureCapacity (h : ms.Holds data) (value : ℕ) :
    (ms.ensureCapacity value).Holds data := by
  unfold MemoryStream.ensureCapacity
  split_ifs
  · exact ⟨h.length, h.bytes.trans (prefix_append _ _)⟩
  · exact h

theorem le_newCapacity (capacity value : ℕ) : value ≤ newCapacity capacity value := by
  unfold newCapacity
  split_ifs <;> omega

theorem le_ensureCapacity (ms : MemoryStream) (value : ℕ) :
    value ≤ (ms.ensureCapacity value).buffer.length := by
  rw [length_ensureCapacity]
  split_ifs
  · exact le_newCapacity _ _
  · omega

theorem holds_write (h : ms.Holds data) (bytes : List UInt8) :
    (ms.write bytes).Holds (data ++ bytes) := by
  have hens := holds_ensureCapacity h (ms.length + bytes.length)
  have htake : (ms.ensureCapacity (ms.length + bytes.length)).buffer.take
      (ms.ensureCapacity (ms.length + bytes.length)).length = data := by
    rw [hens.length]
    exact (prefix_iff_eq_take.1 hens.bytes).symm
  refine ⟨?_, ?_⟩
  · rw [length_append, MemoryStream.write, hens.length]
  · rw [MemoryStream.write]
    simp only [htake]
    exact prefix_append _ _

theorem length_write (h : ms.Holds data) (bytes : List UInt8) :
    (ms.write bytes).buffer.length =
      if ms.buffer.length < data.length + bytes.length then
        newCapacity ms.buffer.length (data.length + bytes.length)
      else ms.buffer.length := by
  have hens := holds_ensureCapacity h (ms.length + bytes.length)
  have hroom := le_ensureCapacity ms (ms.length + bytes.length)
  have hlength := length_ensureCapacity ms (ms.length + bytes.length)
  rw [h.length] at hens hroom hlength
  rw [← hlength, MemoryStream.write, h.length]
  simp only [length_append, length_take, length_drop, hens.length]
  omega

/-- What the size of a buffer is that has been filled with blocks, to `length` bytes. -/
inductive Grown (length : ℕ) : ℕ → Prop
  | block : length ≤ blockSize → Grown length blockSize
  | doubled {j : ℕ} : j < 14 → blockSize * 2 ^ j < length → length ≤ blockSize * 2 ^ (j + 1) →
      Grown length (blockSize * 2 ^ (j + 1))
  | largest : blockSize * 2 ^ 14 < length → length ≤ maxByteArrayLength →
      Grown length maxByteArrayLength
  | larger : maxByteArrayLength < length → Grown length length

theorem newCapacity_doubled (h : capacity * 2 ≤ maxByteArrayLength) {value : ℕ}
    (hvalue : value ≤ capacity * 2) (hcapacity : 128 ≤ capacity) :
    newCapacity capacity value = capacity * 2 := by
  rw [newCapacity, if_neg (by omega)]
  omega

theorem newCapacity_largest (h : maxByteArrayLength < capacity * 2) {value : ℕ}
    (hvalue : value ≤ maxByteArrayLength) : newCapacity capacity value = maxByteArrayLength := by
  rw [newCapacity, if_pos h]
  omega

theorem newCapacity_larger (h : maxByteArrayLength < capacity * 2) {value : ℕ}
    (hvalue : maxByteArrayLength < value) : newCapacity capacity value = value := by
  rw [newCapacity, if_pos h]
  omega

theorem blockSize_mul_le {j : ℕ} (h : j ≤ 14) :
    blockSize ≤ blockSize * 2 ^ j ∧ blockSize * 2 ^ j ≤ blockSize * 2 ^ 14 := by
  refine ⟨Nat.le_mul_of_pos_right _ (Nat.two_pow_pos j), ?_⟩
  exact Nat.mul_le_mul_left _ (Nat.pow_le_pow_right (by omega) h)

theorem Grown.write (h : Grown length capacity) {d : ℕ} (hd : d ≤ blockSize) :
    Grown (length + d) (if capacity < length + d then newCapacity capacity (length + d)
      else capacity) := by
  have hB := blockSize_eq
  have hM := maxByteArrayLength_eq
  cases h with
  | block hle =>
    split_ifs with hlt
    · rw [newCapacity_doubled (by omega) (by omega) (by omega)]
      exact .doubled (j := 0) (by omega) (by omega) (by omega)
    · exact .block (by omega)
  | @doubled j hj hlo hhi =>
    have hpow : blockSize * 2 ^ (j + 1 + 1) = blockSize * 2 ^ (j + 1) * 2 := by
      rw [pow_succ _ (j + 1), mul_assoc]
    have hsize := blockSize_mul_le (j := j + 1) (by omega)
    split_ifs with hlt
    · by_cases hlast : j + 1 < 14
      · have hnext := blockSize_mul_le (j := j + 1 + 1) (by omega)
        rw [newCapacity_doubled (by omega) (by omega) (by omega), ← hpow]
        exact .doubled hlast hlt (by omega)
      · obtain rfl : j = 13 := by omega
        have hbig : maxByteArrayLength < blockSize * 2 ^ (13 + 1) * 2 := by
          rw [hB, hM]
          norm_num
        have hroom : length + d ≤ maxByteArrayLength := by omega
        rw [newCapacity_largest hbig hroom]
        exact .largest hlt hroom
    · exact .doubled hj (by omega) (by omega)
  | largest hlo hhi =>
    split_ifs with hlt
    · have hbig : maxByteArrayLength < maxByteArrayLength * 2 := by
        rw [hM]
        norm_num
      rw [newCapacity_larger hbig hlt]
      exact .larger hlt
    · exact .largest (by omega) (by omega)
  | larger hlt =>
    split_ifs with hmore
    · rw [newCapacity_larger (by omega) (by omega)]
      exact .larger (by omega)
    · obtain rfl : d = 0 := by omega
      exact .larger hlt

theorem copyTo_nil (ms : MemoryStream) : copyTo [] ms = ms := by
  rw [copyTo]

theorem copyTo_of_ne_nil (h : bytes ≠ []) (ms : MemoryStream) :
    copyTo bytes ms = copyTo (bytes.drop blockSize) (ms.write (bytes.take blockSize)) := by
  obtain ⟨b, bytes, rfl⟩ := exists_cons_of_ne_nil h
  rw [copyTo]

theorem grown_copyTo (bytes : List UInt8) (ms : MemoryStream) : ∀ {data : List UInt8},
    ms.Holds data → Grown data.length ms.buffer.length →
      (copyTo bytes ms).Holds (data ++ bytes) ∧
        Grown (data ++ bytes).length (copyTo bytes ms).buffer.length := by
  induction bytes, ms using copyTo.induct with
  | case1 ms =>
    intro data h hgrown
    rw [copyTo_nil, append_nil]
    exact ⟨h, hgrown⟩
  | case2 b bytes ms ih =>
    intro data h hgrown
    have hlength : ((b :: bytes).take blockSize).length ≤ blockSize := length_take_le _ _
    have hwrite := hgrown.write hlength
    rw [← length_write h, ← length_append] at hwrite
    have hrest := ih (holds_write h _) hwrite
    rw [append_assoc, take_append_drop] at hrest
    rw [copyTo]
    exact hrest

theorem length_write_empty (bytes : List UInt8) (h : bytes ≠ []) :
    (MemoryStream.write {} bytes).buffer.length = max bytes.length 256 := by
  have hpos := length_pos_of_ne_nil h
  have hM := maxByteArrayLength_eq
  rw [length_write holds_empty, length_nil, Nat.zero_add, if_pos hpos, newCapacity,
    if_neg (by omega)]
  omega

def IsFull (n : ℕ) : Prop :=
  n = 0 ∨ (256 ≤ n ∧ n ≤ blockSize) ∨ (∃ j ≤ 14, n = blockSize * 2 ^ j) ∨ maxByteArrayLength ≤ n

theorem Grown.eq_iff (h : Grown length capacity) (hlength : blockSize ≤ length) :
    capacity = length ↔ IsFull length := by
  have hB := blockSize_eq
  have hM := maxByteArrayLength_eq
  refine ⟨fun heq => ?_, fun hfull => ?_⟩
  · subst heq
    cases h with
    | block hle => exact .inr (.inl ⟨by omega, le_rfl⟩)
    | doubled hj _ _ => exact .inr (.inr (.inl ⟨_, hj, rfl⟩))
    | largest _ _ => exact .inr (.inr (.inr le_rfl))
    | larger hlt => exact .inr (.inr (.inr hlt.le))
  · cases h with
    | block hle => omega
    | @doubled j hj hlo hhi =>
      have hsize := blockSize_mul_le (j := j + 1) (by omega)
      rcases hfull with h0 | ⟨-, hle⟩ | ⟨i, hi, rfl⟩ | hmax
      · omega
      · have := blockSize_mul_le (j := j) (by omega)
        omega
      · have hpos : 0 < blockSize := by omega
        have hji := (Nat.pow_lt_pow_iff_right (by omega)).1 (Nat.lt_of_mul_lt_mul_left hlo)
        have hij := (Nat.pow_le_pow_iff_right (by omega)).1 (Nat.le_of_mul_le_mul_left hhi hpos)
        obtain rfl : i = j + 1 := by omega
        rfl
      · omega
    | largest hlo hhi =>
      rcases hfull with h0 | ⟨-, hle⟩ | ⟨i, hi, rfl⟩ | hmax
      · omega
      · omega
      · have := (blockSize_mul_le hi).2
        omega
      · omega
    | larger hlt => rfl

theorem copyTo_le_block (hne : bytes ≠ []) (hle : bytes.length ≤ blockSize) :
    copyTo bytes {} = MemoryStream.write {} bytes := by
  rw [copyTo_of_ne_nil hne, drop_of_length_le hle, copyTo_nil, take_of_length_le hle]

theorem grown_copyTo_empty (h : blockSize < bytes.length) :
    (copyTo bytes {}).Holds bytes ∧ Grown bytes.length (copyTo bytes {}).buffer.length := by
  have hB := blockSize_eq
  have htake : (bytes.take blockSize).length = blockSize := by
    rw [length_take]
    omega
  have hne : bytes ≠ [] := ne_nil_of_length_pos (by omega)
  have hfirst := holds_write holds_empty (bytes.take blockSize)
  have hgrown : Grown (bytes.take blockSize).length
      (MemoryStream.write {} (bytes.take blockSize)).buffer.length := by
    rw [length_write_empty _ (ne_nil_of_length_pos (by omega)), htake, max_eq_left (by omega)]
    exact .block le_rfl
  have hrest := grown_copyTo (bytes.drop blockSize) _ hfirst hgrown
  rw [nil_append, take_append_drop] at hrest
  rw [copyTo_of_ne_nil hne]
  exact hrest

theorem holds_copyTo (bytes : List UInt8) : (copyTo bytes {}).Holds bytes := by
  rcases Nat.lt_or_ge blockSize bytes.length with h | h
  · exact (grown_copyTo_empty h).1
  · by_cases hne : bytes = []
    · rw [hne, copyTo_nil]
      exact holds_empty
    · rw [copyTo_le_block hne h]
      exact holds_write holds_empty bytes

theorem length_copyTo (bytes : List UInt8) :
    (copyTo bytes {}).buffer.length = bytes.length ↔ IsFull bytes.length := by
  have hB := blockSize_eq
  rcases Nat.lt_or_ge blockSize bytes.length with h | h
  · exact (grown_copyTo_empty h).2.eq_iff h.le
  · by_cases hne : bytes = []
    · rw [hne, copyTo_nil]
      exact ⟨fun _ => .inl rfl, fun _ => rfl⟩
    · have hpos := length_pos_of_ne_nil hne
      rw [copyTo_le_block hne h, length_write_empty bytes hne]
      refine ⟨fun heq => .inr (.inl ⟨by omega, h⟩), fun hfull => ?_⟩
      have hle : 256 ≤ bytes.length := by
        rcases hfull with h0 | ⟨hle, -⟩ | ⟨j, hj, heq⟩ | hmax
        · omega
        · exact hle
        · have := (blockSize_mul_le hj).1
          omega
        · have := maxByteArrayLength_eq
          omega
      exact max_eq_left hle

theorem buffer_copyTo (bytes : List UInt8) :
    (copyTo bytes {}).buffer = bytes ↔ IsFull bytes.length := by
  rw [← length_copyTo]
  refine ⟨fun h => congrArg List.length h, fun h => ?_⟩
  exact ((holds_copyTo bytes).bytes.eq_of_length h.symm).symm

end Capacity

section Paths

variable {root : Text} {queryID queryID' : Int32}

theorem length_hex : ∀ (width n : ℕ), (hex width n).length = width
  | 0, _ => rfl
  | width + 1, n => by
    rw [hex, length_append, length_hex width, length_singleton]

theorem digitChar_inj : ∀ n < 16, ∀ m < 16, Nat.digitChar n = Nat.digitChar m → n = m := by
  decide

theorem hex_inj : ∀ {width n m : ℕ}, n < 16 ^ width → m < 16 ^ width →
    hex width n = hex width m → n = m
  | 0, n, m, hn, hm, _ => by
    rw [pow_zero] at hn hm
    omega
  | width + 1, n, m, hn, hm, h => by
    rw [pow_succ] at hn hm
    obtain ⟨hinit, hlast⟩ := append_inj' h rfl
    have hdiv := hex_inj (Nat.div_lt_of_lt_mul (by omega)) (Nat.div_lt_of_lt_mul (by omega)) hinit
    have hmod := digitChar_inj _ (Nat.mod_lt n (by omega)) _ (Nat.mod_lt m (by omega))
      (singleton_injective hlast)
    omega

theorem foldChar_digitChar : ∀ n < 16, Sql.foldChar (Nat.digitChar n) = Nat.digitChar n := by
  decide

theorem toLower_append (s t : Text) : toLower (s ++ t) = toLower s ++ toLower t :=
  map_append

theorem toLower_hex : ∀ (width n : ℕ), toLower (hex width n) = hex width n
  | 0, _ => rfl
  | width + 1, n => by
    have hlast : toLower [Nat.digitChar (n % 16)] = [Nat.digitChar (n % 16)] :=
      congrArg (fun c => [c]) (foldChar_digitChar _ (Nat.mod_lt n (by omega)))
    rw [hex, toLower_append, toLower_hex width, hlast]

theorem length_folder (root : Text) (queryID : Int32) :
    (folder root queryID).length = root.length + 9 := by
  simp only [folder, length_append, length_cons, length_hex]

theorem filePath_inj (h : filePath root queryID = filePath root queryID') : queryID = queryID' := by
  have hfolder (q : Int32) : (toLower (folder root q)).length = root.length + 9 := by
    rw [toLower, length_map, length_folder]
  have hname (q : Int32) : (toLower ('\\' :: hex 8 q.toBitVec.toNat)).length = 9 := by
    rw [toLower, length_map, length_cons, length_hex]
  simp only [filePath, iwsCacheFilePath, toLower_append, append_assoc] at h
  have hrest := (append_inj h (by rw [hfolder, hfolder])).2
  have hhex := (append_inj hrest (by rw [hname, hname])).1
  have htail := (cons_eq_cons.1 hhex).2
  change toLower (hex 8 queryID.toBitVec.toNat) = toLower (hex 8 queryID'.toBitVec.toNat) at htail
  rw [toLower_hex, toLower_hex] at htail
  have hnat := hex_inj (queryID.toBitVec.isLt.trans_eq (by norm_num))
    (queryID'.toBitVec.isLt.trans_eq (by norm_num)) htail
  exact Int32.toBitVec_inj.1 (BitVec.eq_of_toNat_eq hnat)

end Paths

section Main

variable (root : Text) (queryID : Int32) (writes : List (Int32 × List UInt8))

theorem lastWritten_append (w : Int32 × List UInt8) : lastWritten queryID (writes ++ [w]) =
      if w.1 = queryID then some w.2 else lastWritten queryID writes := by
  rw [lastWritten, reverse_append, reverse_singleton, singleton_append, find?_cons]
  split_ifs with h
  · simp [h]
  · simp [h, lastWritten]

theorem writeAll_apply :
    writeAll root (fun _ => none) writes (filePath root queryID) = lastWritten queryID writes := by
  induction writes using List.reverseRecOn with
  | nil => rfl
  | append_singleton writes w ih =>
    rw [lastWritten_append, writeAll, foldl_append, foldl_cons, foldl_nil, writeToFileSystem]
    split_ifs with h
    · rw [h, Function.update_self]
    · rw [Function.update_of_ne fun heq => h (filePath_inj heq).symm]
      exact ih

theorem read_eq_iff : readFromFileSystem root (writeAll root (fun _ => none) writes) queryID =
        lastWritten queryID writes ↔
      ∀ bytes ∈ lastWritten queryID writes, IsFull bytes.length := by
  rw [readFromFileSystem, writeAll_apply]
  rcases lastWritten queryID writes with _ | bytes
  · simp
  · rw [Option.map_some, Option.some_inj, buffer_copyTo]
    simp

/-- Queries do not share a file, and reading returns what was last written if and only if it fills a
buffer. -/
theorem returns_written_iff :
    (∀ queryID queryID', filePath root queryID = filePath root queryID' → queryID = queryID') ∧
      ∀ queryID writes,
        readFromFileSystem root (writeAll root (fun _ => none) writes) queryID =
            lastWritten queryID writes ↔
          ∀ bytes ∈ lastWritten queryID writes, IsFull bytes.length :=
  ⟨fun _ _ => filePath_inj, read_eq_iff root⟩

theorem three_bytes_not_returned :
    readFromFileSystem [] (writeAll [] (fun _ => none) [(5, [1, 2, 3])]) 5 ≠
      lastWritten 5 [(5, [1, 2, 3])] := by
  intro h
  rcases (read_eq_iff [] 5 _).1 h [1, 2, 3] rfl with h0 | ⟨hle, -⟩ | ⟨j, hj, heq⟩ | hmax
  · cases h0
  · exact absurd hle (by decide)
  · have := (blockSize_mul_le hj).1
    rw [← heq, blockSize_eq] at this
    exact absurd this (by decide)
  · rw [maxByteArrayLength_eq] at hmax
    exact absurd hmax (by decide)

end Main

end AciX.FileStore
