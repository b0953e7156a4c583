import Mathlib.Tactic
import Mathlib.Data.Nat.Digits.Lemmas

/-!
# Integers in byte memory

A memory assigns a byte to every address.  An integer of `n` bytes is stored
with its least significant byte first or last; both orders are described by
the place of the byte of a given significance.  Loading reads back what was
stored, a load at another address does not notice a store, and a load inside a
stored integer cuts out a part of it.  Swapping the bytes of an integer turns
one order into the other.
-/

namespace ByteMemory

abbrev Memory := ℕ → UInt8

inductive ByteOrder where
  | little
  | big
  deriving DecidableEq, Repr

/-- The offset of the byte of significance `256 ^ k` in an integer of `n`
bytes. -/
def ByteOrder.place : ByteOrder → ℕ → ℕ → ℕ
  | .little, _, k => k
  | .big, n, k => n - 1 - k

def store (order : ByteOrder) (n addr value : ℕ) (mem : Memory) : Memory :=
  fun a =>
    if addr ≤ a ∧ a < addr + n then
      UInt8.ofNat (value / 256 ^ order.place n (a - addr))
    else mem a

/-- The bytes of an integer of `n` bytes, the least significant one first. -/
def bytes (order : ByteOrder) (n addr : ℕ) (mem : Memory) : List ℕ :=
  (List.range n).map fun k => (mem (addr + order.place n k)).toNat

def load (order : ByteOrder) (n addr : ℕ) (mem : Memory) : ℕ :=
  Nat.ofDigits 256 (bytes order n addr mem)

/-- The integer with the `n` bytes of `value` in reverse. -/
def swap (n value : ℕ) : ℕ :=
  Nat.ofDigits 256
    ((List.range n).map fun k => value / 256 ^ (n - 1 - k) % 256)

/-- Receiving a byte string at an address. -/
def fill (addr : ℕ) (data : List UInt8) (mem : Memory) : Memory :=
  fun a => if addr ≤ a then data.getD (a - addr) (mem a) else mem a

def image (length : ℕ) (mem : Memory) : List UInt8 :=
  (List.range length).map mem

/-- The bytes of an integer on a little-endian wire. -/
def encode (n value : ℕ) : List UInt8 :=
  (List.range n).map fun k => UInt8.ofNat (value / 256 ^ k)

/-- The integer of `n` bytes at an offset of a little-endian byte string. -/
def decode (n offset : ℕ) (data : List UInt8) : ℕ :=
  load .little n offset fun a => data.getD a 0

/-- The offsets of the members of a structure in the natural layout: each at
the next multiple of its size. -/
def layout : ℕ → List ℕ → List ℕ
  | _, [] => []
  | offset, size :: sizes =>
      let start := (offset + size - 1) / size * size
      start :: layout (start + size) sizes

def storeStruct (order : ByteOrder) (addr : ℕ) (sizes values : List ℕ)
    (mem : Memory) : Memory :=
  ((layout 0 sizes).zip (sizes.zip values)).foldl
    (fun mem member =>
      store order member.2.1 (addr + member.1) member.2.2 mem) mem

def loadMember (order : ByteOrder) (addr : ℕ) (sizes : List ℕ) (k : ℕ)
    (mem : Memory) : ℕ :=
  load order (sizes.getD k 0) (addr + (layout 0 sizes).getD k 0) mem

variable {order : ByteOrder} {mem : Memory} {n m addr addr' k value : ℕ}

/-! ## Bytes of an integer -/

theorem ofDigits_bytes_of (value n : ℕ) :
    Nat.ofDigits 256 ((List.range n).map fun k => value / 256 ^ k % 256) =
      value % 256 ^ n := by
  induction n with
  | zero => simp [Nat.mod_one]
  | succ n ih =>
      rw [List.range_succ, List.map_append, Nat.ofDigits_append, ih,
        Nat.mod_pow_succ]
      simp

theorem ofDigits_byte {digits : List ℕ} (hdigits : ∀ d ∈ digits, d < 256)
    (hk : k < digits.length) :
    Nat.ofDigits 256 digits / 256 ^ k % 256 = digits[k] := by
  rw [Nat.ofDigits_div_pow_eq_ofDigits_drop k (by norm_num) digits hdigits,
    List.drop_eq_getElem_cons hk, Nat.ofDigits_cons, Nat.add_mul_mod_self_left]
  exact Nat.mod_eq_of_lt (hdigits _ (List.getElem_mem hk))

theorem ByteOrder.place_lt (order : ByteOrder) (hk : k < n) :
    order.place n k < n := by
  cases order
  · exact hk
  · simp only [place]
    omega

theorem ByteOrder.place_place (hk : k < n) :
    order.place n (order.place n k) = k := by
  cases order
  · rfl
  · simp only [place]
    omega

theorem store_byte (hk : k < n) :
    (store order n addr value mem (addr + order.place n k)).toNat =
      value / 256 ^ k % 256 := by
  have hplace := order.place_lt hk
  rw [store, if_pos (by omega), Nat.add_sub_cancel_left,
    ByteOrder.place_place hk, UInt8.toNat_ofNat']

theorem store_of_outside {a : ℕ} (houtside : a < addr ∨ addr + n ≤ a) :
    store order n addr value mem a = mem a := by
  rw [store, if_neg (by omega)]

/-! ## Loading -/

/-- A load yields the integer whose bytes are in place. -/
theorem load_eq_mod
    (hbytes : ∀ k < n, (mem (addr + order.place n k)).toNat =
      value / 256 ^ k % 256) :
    load order n addr mem = value % 256 ^ n := by
  rw [load, bytes, ← ofDigits_bytes_of]
  congr 1
  exact List.map_congr_left fun k hk => hbytes k (List.mem_range.mp hk)

theorem load_store :
    load order n addr (store order n addr value mem) = value % 256 ^ n :=
  load_eq_mod fun _ hk => store_byte hk

theorem load_lt : load order n addr mem < 256 ^ n := by
  have hlt : ∀ d ∈ bytes order n addr mem, d < 256 := by
    intro d hd
    obtain ⟨k, -, rfl⟩ := List.mem_map.mp hd
    exact UInt8.toNat_lt _
  have hpow := Nat.ofDigits_lt_base_pow_length (by norm_num) hlt
  rwa [bytes, List.length_map, List.length_range] at hpow

theorem load_congr {mem' : Memory}
    (hsame : ∀ a, addr ≤ a → a < addr + n → mem a = mem' a) :
    load order n addr mem = load order n addr mem' := by
  rw [load, load, bytes, bytes]
  congr 1
  apply List.map_congr_left
  intro k hk
  have hplace := order.place_lt (List.mem_range.mp hk)
  rw [hsame _ (by omega) (by omega)]

theorem load_store_of_disjoint {order' : ByteOrder}
    (hdisjoint : addr + n ≤ addr' ∨ addr' + m ≤ addr) :
    load order n addr (store order' m addr' value mem) =
      load order n addr mem :=
  load_congr fun _ _ _ => store_of_outside (by omega)

theorem load_store_within (hwithin : k + n ≤ m) :
    load order n (addr + k) (store order m addr value mem) =
      value / 256 ^ (match order with
        | .little => k
        | .big => m - k - n) % 256 ^ n := by
  apply load_eq_mod
  intro j hj
  rw [Nat.div_div_eq_div_mul, ← pow_add]
  cases order with
  | little =>
      have hbyte : (store .little m addr value mem
          (addr + ByteOrder.little.place m (k + j))).toNat =
          value / 256 ^ (k + j) % 256 := store_byte (by omega)
      rwa [ByteOrder.place, ← Nat.add_assoc] at hbyte
  | big =>
      have hbyte : (store .big m addr value mem
          (addr + ByteOrder.big.place m (m - k - n + j))).toNat =
          value / 256 ^ (m - k - n + j) % 256 := store_byte (by omega)
      have hplace : addr + ByteOrder.big.place m (m - k - n + j) =
          addr + k + ByteOrder.big.place n j := by
        simp only [ByteOrder.place]
        omega
      rwa [hplace] at hbyte

/-! ## Byte strings -/

@[simp] theorem encode_length : (encode n value).length = n := by
  simp [encode]

theorem decode_image {length : ℕ} (hlength : addr + n ≤ length) :
    decode n addr (image length mem) = load .little n addr mem := by
  apply load_congr
  intro a _ ha
  have hlt : a < length := by omega
  simp [image, List.getD_eq_getElem?_getD, hlt]

theorem fill_append {first second : List UInt8} :
    fill addr (first ++ second) mem =
      fill (addr + first.length) second (fill addr first mem) := by
  funext a
  simp only [fill, List.getD_eq_getElem?_getD]
  by_cases haddr : addr ≤ a
  · by_cases hfirst : a - addr < first.length
    · rw [if_pos haddr, if_neg (by omega), if_pos haddr,
        List.getElem?_append_left hfirst]
    · rw [if_pos haddr, if_pos (by omega), if_pos haddr,
        List.getElem?_append_right (by omega),
        List.getElem?_eq_none (l := first) (by omega),
        show a - addr - first.length = a - (addr + first.length) by omega]
      rfl
  · rw [if_neg haddr, if_neg (by omega), if_neg haddr]

/-- Receiving an integer from a little-endian wire stores it little-endian,
whatever the host's own order is. -/
theorem fill_encode :
    fill addr (encode n value) mem = store .little n addr value mem := by
  funext a
  simp only [fill, store, ByteOrder.place, List.getD_eq_getElem?_getD]
  by_cases haddr : addr ≤ a
  · by_cases hlt : a < addr + n
    · have hoffset : a - addr < n := by omega
      simp [encode, haddr, hlt, hoffset]
    · rw [if_pos haddr, if_neg (by omega),
        List.getElem?_eq_none (by rw [encode_length]; omega)]
      rfl
  · rw [if_neg haddr, if_neg (by omega)]

theorem fill_of_outside {data : List UInt8} {a : ℕ}
    (houtside : a < addr ∨ addr + data.length ≤ a) :
    fill addr data mem a = mem a := by
  rcases houtside with hbelow | habove
  · rw [fill, if_neg (not_le.mpr hbelow)]
  · rw [fill, if_pos (by omega), List.getD_eq_getElem?_getD,
      List.getElem?_eq_none (by omega), Option.getD_none]

theorem load_fill_of_below {data : List UInt8} (hbelow : addr + n ≤ addr') :
    load order n addr (fill addr' data mem) = load order n addr mem := by
  apply load_congr
  intro a _ ha
  rw [fill, if_neg (by omega)]

theorem load_fill_flatMap {values : List ℕ} (hk : k < values.length) :
    load .little n (addr + n * k) (fill addr (values.flatMap (encode n)) mem) =
      values[k] % 256 ^ n := by
  induction values generalizing addr mem k with
  | nil => simp at hk
  | cons head rest ih =>
      rw [List.flatMap_cons, fill_append, encode_length, fill_encode]
      cases k with
      | zero =>
          rw [Nat.mul_zero, Nat.add_zero, load_fill_of_below le_rfl,
            load_store]
          rfl
      | succ k =>
          rw [Nat.mul_succ, Nat.add_comm (n * k), ← Nat.add_assoc,
            ih (by simpa using hk)]
          rfl

theorem flatMap_encode_length {values : List ℕ} :
    (values.flatMap (encode n)).length = n * values.length := by
  induction values with
  | nil => simp
  | cons head rest ih =>
      rw [List.flatMap_cons, List.length_append, ih, encode_length,
        List.length_cons, Nat.mul_succ, Nat.add_comm]

/-- Reading one of a row of integers in the middle of a byte string. -/
theorem decode_flatMap {values : List ℕ} (hk : k < values.length)
    (before after : List UInt8) :
    decode n (before.length + n * k)
      (before ++ values.flatMap (encode n) ++ after) =
      values[k] % 256 ^ n := by
  have hfill : ∀ data : List UInt8,
      (fun a => data.getD a 0) = fill 0 data fun _ => 0 := by
    intro data
    funext a
    simp [fill]
  have hbelow : before.length + n * k + n ≤
      0 + (before ++ values.flatMap (encode n)).length := by
    have hle : n * (k + 1) ≤ n * values.length := Nat.mul_le_mul_left n hk
    rw [List.length_append, flatMap_encode_length]
    rw [Nat.mul_succ] at hle
    omega
  rw [decode, hfill, fill_append, load_fill_of_below hbelow, fill_append,
    Nat.zero_add]
  exact load_fill_flatMap hk

/-! ## Writing byte by byte -/

/-- Assignments to single bytes, in order. -/
def writeAll (writes : List (ℕ × UInt8)) (mem : Memory) : Memory :=
  writes.foldl (fun mem write => Function.update mem write.1 write.2) mem

theorem fill_singleton {byte : UInt8} :
    fill addr [byte] mem = Function.update mem addr byte := by
  funext a
  rcases lt_trichotomy a addr with hlt | rfl | hgt
  · rw [fill, if_neg (by omega), Function.update_of_ne (by omega)]
  · rw [fill, if_pos le_rfl, Nat.sub_self, Function.update_self]
    rfl
  · rw [fill, if_pos (by omega), Function.update_of_ne (by omega),
      List.getD_eq_getElem?_getD, List.getElem?_eq_none (by simp; omega)]
    rfl

/-- Assignments to consecutive addresses store a byte string. -/
theorem writeAll_eq_fill {writes : List (ℕ × UInt8)}
    (hconsecutive : writes.map Prod.fst = List.range' addr writes.length) :
    writeAll writes mem = fill addr (writes.map Prod.snd) mem := by
  induction writes generalizing addr mem with
  | nil =>
      funext a
      simp [writeAll, fill]
  | cons write rest ih =>
      rw [List.map_cons, List.length_cons, List.range'_succ,
        List.cons.injEq] at hconsecutive
      obtain ⟨rfl, hrest⟩ := hconsecutive
      have hhead : write.2 :: rest.map Prod.snd =
          [write.2] ++ rest.map Prod.snd := rfl
      rw [List.map_cons, hhead, fill_append, fill_singleton]
      exact ih hrest

/-! ## Swapping bytes -/

theorem swap_digit_lt {d : ℕ}
    (hd : d ∈ (List.range n).map fun k => value / 256 ^ (n - 1 - k) % 256) :
    d < 256 := by
  obtain ⟨j, -, rfl⟩ := List.mem_map.mp hd
  exact Nat.mod_lt _ (by norm_num)

theorem swap_lt : swap n value < 256 ^ n := by
  have hpow := Nat.ofDigits_lt_base_pow_length (by norm_num)
    fun _ hd => @swap_digit_lt n value _ hd
  rwa [List.length_map, List.length_range] at hpow

theorem swap_byte (hk : k < n) :
    swap n value / 256 ^ k % 256 = value / 256 ^ (n - 1 - k) % 256 := by
  rw [swap, ofDigits_byte (fun _ => swap_digit_lt) (by simpa using hk)]
  simp

theorem store_swap :
    store .big n addr (swap n value) mem = store .little n addr value mem := by
  funext a
  unfold store
  by_cases ha : addr ≤ a ∧ a < addr + n
  · rw [if_pos ha, if_pos ha, ← UInt8.toNat_inj, UInt8.toNat_ofNat',
      UInt8.toNat_ofNat']
    have hbyte := @swap_byte n (n - 1 - (a - addr)) value (by omega)
    have hback : n - 1 - (n - 1 - (a - addr)) = a - addr := by omega
    rwa [hback] at hbyte
  · rw [if_neg ha, if_neg ha]

theorem swap_load : swap n (load .big n addr mem) = load .little n addr mem := by
  have hbytes : ∀ d ∈ bytes .big n addr mem, d < 256 := by
    simp only [bytes, List.mem_map]
    rintro d ⟨k, -, rfl⟩
    exact UInt8.toNat_lt _
  rw [swap, load, load]
  congr 1
  apply List.map_congr_left
  intro k hk
  have hk := List.mem_range.mp hk
  rw [ofDigits_byte hbytes (by simp [bytes]; omega)]
  have hback : n - 1 - (n - 1 - k) = k := by omega
  simp [bytes, ByteOrder.place, hback]

theorem swap_swap : swap n (swap n value) = value % 256 ^ n := by
  rw [swap, ← ofDigits_bytes_of]
  congr 1
  apply List.map_congr_left
  intro k hk
  have hk := List.mem_range.mp hk
  rw [swap_byte (by omega), show n - 1 - (n - 1 - k) = k by omega]

/-- Swapping more bytes than an integer fills moves it up. -/
theorem swap_add (hvalue : value < 256 ^ n) :
    swap (m + n) value = 256 ^ m * swap n value := by
  have hzeros : ((List.range m).map fun k =>
      value / 256 ^ (m + n - 1 - k) % 256) = List.replicate m 0 := by
    refine List.eq_replicate_iff.mpr ⟨by simp, fun d hd => ?_⟩
    obtain ⟨k, hk, rfl⟩ := List.mem_map.mp hd
    have hk := List.mem_range.mp hk
    have hpow : 256 ^ n ≤ 256 ^ (m + n - 1 - k) :=
      Nat.pow_le_pow_right (by norm_num) (by omega)
    rw [Nat.div_eq_of_lt (by omega)]
  have hrest : ((List.range n).map fun k =>
      value / 256 ^ (m + n - 1 - (m + k)) % 256) =
      (List.range n).map fun k => value / 256 ^ (n - 1 - k) % 256 := by
    apply List.map_congr_left
    intro k _
    rw [show m + n - 1 - (m + k) = n - 1 - k by omega]
  rw [swap, List.range_add, List.map_append, List.map_map, hzeros,
    Nat.ofDigits_append, List.length_replicate, Nat.ofDigits_replicate_zero,
    Nat.zero_add]
  exact congrArg (256 ^ m * Nat.ofDigits 256 ·) hrest

end ByteMemory
