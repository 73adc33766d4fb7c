-- The Bloom filter of the gateway agent: a vector of bits in 32-bit words, and
-- three hashes that choose the bits of an element.
import EdgeCookie.Headers

namespace edge_cookie

open bytes headers

/-! ## The hashes -/

def djb2 (data : List U8) : U32 :=
  data.foldl (fun hash b => ((hash <<< 5) + hash) + b.setWidth 32) 5381

def sdbm (data : List U8) : U32 :=
  data.foldl (fun hash b => b.setWidth 32 + (hash <<< 6) + (hash <<< 16) - hash) 0

/-- One turn of the loop of `mm2`, on the next four bytes. -/
def mm2Word (h k : U32) : U32 :=
  let m : U32 := 0x5bd1e995
  let k := k * m
  let k := k ^^^ (k >>> 24)
  let k := k * m
  (h * m) ^^^ k

/-- The loop of `mm2`: it stops when fewer than four bytes are left. -/
def mm2Loop (h : U32) : List U8 → U32
  | b0 :: b1 :: b2 :: b3 :: rest => mm2Loop (mm2Word h (b3 ++ b2 ++ b1 ++ b0)) rest
  | _ => h

def mm2 (data : List U8) : U32 :=
  let h := mm2Loop 0xffee data
  let h := h ^^^ (h >>> 13)
  let h := h * 0x5bd1e995
  h ^^^ (h >>> 15)

/-! ## The vector of bits -/

/-- `words` is how many words `calloc` gave; `mem` holds them. -/
structure bit_vect where
  mem : Nat → U32
  words : Nat
  size : Nat

def bit_vect_new (num_bits : Nat) : bit_vect :=
  let mem_size := num_bits / 32
  let mem_size := if num_bits % 32 = 0 then mem_size + 1 else mem_size
  ⟨fun _ => 0, mem_size, num_bits⟩

/-- An index past the end ends the program, so it has no value here. -/
def bit_vect_get (vect : bit_vect) (bit_idx : Nat) : Option Bool :=
  if vect.size ≤ bit_idx then none
  else
    let chunk_offset := bit_idx / 32
    let bit_offset := bit_idx % 32
    some ((vect.mem chunk_offset >>> bit_offset).getLsbD 0)

def bit_vect_set (vect : bit_vect) (bit_idx : Nat) (val : Bool) : Option bit_vect :=
  if vect.size ≤ bit_idx then none
  else
    let chunk_offset := bit_idx / 32
    let bit_offset := bit_idx % 32
    let byte := vect.mem chunk_offset
    let byte := if val then byte ||| (1#32 <<< bit_offset) else byte &&& ~~~(1#32 <<< bit_offset)
    some { vect with mem := fun i => if i = chunk_offset then byte else vect.mem i }

def bit_vect_set1 (vect : bit_vect) (bit_idx : Nat) : Option bit_vect :=
  bit_vect_set vect bit_idx true

/-! ## The filter -/

structure bloom_filter where
  vect : bit_vect
  hash_functions : List (List U8 → U32)
  num_items : Nat

def bloom_filter_new (size : Nat) (hash_functions : List (List U8 → U32)) : bloom_filter :=
  ⟨bit_vect_new size, hash_functions, 0⟩

/-- One turn of the loop of `bloom_filter_put`. -/
def bloomPutOne (data : List U8) (filter : bloom_filter) (hash : List U8 → U32) : bloom_filter :=
  match bit_vect_set1 filter.vect ((hash data).toNat % filter.vect.size) with
  | some vect => { filter with vect, num_items := filter.num_items + 1 }
  | none => filter

def bloom_filter_put (filter : bloom_filter) (data : List U8) : bloom_filter :=
  filter.hash_functions.foldl (bloomPutOne data) filter

def bloom_filter_test (filter : bloom_filter) (data : List U8) : Bool :=
  filter.hash_functions.all fun hash =>
    (bit_vect_get filter.vect ((hash data).toNat % filter.vect.size)).getD false

/-! ## What is in the filter stays there -/

/-- Bit `i` is set. -/
def bit_vect.bit (vect : bit_vect) (i : Nat) : Bool := (bit_vect_get vect i).getD false

theorem bloom_filter_test_iff (filter : bloom_filter) (data : List U8) :
    bloom_filter_test filter data = true ↔
      ∀ hash ∈ filter.hash_functions,
        filter.vect.bit ((hash data).toNat % filter.vect.size) = true := List.all_eq_true

/-- A bit is set when it was set, or is the one that is set now. -/
theorem bit_set1 {vect vect' : bit_vect} {i : Nat} (h : bit_vect_set1 vect i = some vect')
    (j : Nat) :
    vect'.bit j = (vect.bit j || decide (j = i)) ∧ vect'.size = vect.size := by
  unfold bit_vect_set1 bit_vect_set at h
  split at h
  · cases h
  · rename_i hi
    obtain rfl := Option.some.inj h
    refine ⟨?_, rfl⟩
    unfold bit_vect.bit bit_vect_get
    dsimp only
    by_cases hj : vect.size ≤ j
    · rw [if_pos hj, if_pos hj, decide_eq_false (by omega)]
      rfl
    rw [if_neg hj, if_neg hj, Option.getD_some, Option.getD_some, BitVec.getLsbD_ushiftRight,
      BitVec.getLsbD_ushiftRight, Nat.add_zero, if_pos rfl]
    by_cases hword : j / 32 = i / 32
    · rw [if_pos hword, hword, BitVec.getLsbD_or]
      congr 1
      have hlt : j % 32 < 32 := Nat.mod_lt _ (by decide)
      simp only [BitVec.getLsbD_shiftLeft, BitVec.getLsbD_one, hlt, decide_true, Bool.true_and]
      by_cases hbit : j % 32 = i % 32
      · have hij : j = i := by omega
        subst hij
        simp
      · rw [decide_eq_false (by omega : ¬ j = i)]
        simp
        omega
    · rw [if_neg hword, decide_eq_false (by rintro rfl; exact hword rfl), Bool.or_false]

theorem bit_vect_set1_some {vect : bit_vect} {i : Nat} (h : i < vect.size) :
    ∃ vect', bit_vect_set1 vect i = some vect' := by
  unfold bit_vect_set1 bit_vect_set
  rw [if_neg (Nat.not_le.mpr h)]
  exact ⟨_, rfl⟩

/-- The filter `g` has the size and the hashes of `f`, and all its bits. -/
structure bloom_filter.Extends (f g : bloom_filter) : Prop where
  size : g.vect.size = f.vect.size
  hashes : g.hash_functions = f.hash_functions
  bits : ∀ i, f.vect.bit i = true → g.vect.bit i = true

theorem bloom_filter.Extends.refl (f : bloom_filter) : f.Extends f := ⟨rfl, rfl, fun _ h => h⟩

theorem bloom_filter.Extends.trans {f g h : bloom_filter} (h1 : f.Extends g) (h2 : g.Extends h) :
    f.Extends h :=
  ⟨h2.size.trans h1.size, h2.hashes.trans h1.hashes, fun i hi => h2.bits i (h1.bits i hi)⟩

/-- An element in a filter is in every filter that extends it. -/
theorem bloom_filter.Extends.test {f g : bloom_filter} (h : f.Extends g) {data : List U8}
    (hf : bloom_filter_test f data = true) : bloom_filter_test g data = true := by
  rw [bloom_filter_test_iff] at hf ⊢
  rw [h.hashes, h.size]
  intro hash hmem
  exact h.bits _ (hf hash hmem)

theorem bloomPutOne_extends (data : List U8) (f : bloom_filter) (hash : List U8 → U32) :
    f.Extends (bloomPutOne data f hash) := by
  unfold bloomPutOne
  split
  · rename_i vect hset
    refine ⟨(bit_set1 hset 0).2, rfl, fun i hi => ?_⟩
    change vect.bit i = true
    rw [(bit_set1 hset i).1, hi, Bool.true_or]
  · exact .refl f

theorem bit_bloomPutOne {f : bloom_filter} (data : List U8) (hash : List U8 → U32)
    (hsize : 0 < f.vect.size) (i : Nat) :
    (bloomPutOne data f hash).vect.bit i =
      (f.vect.bit i || decide (i = (hash data).toNat % f.vect.size)) := by
  obtain ⟨vect, hset⟩ := bit_vect_set1_some (Nat.mod_lt (hash data).toNat hsize)
  unfold bloomPutOne
  rw [hset]
  exact (bit_set1 hset i).1

theorem foldl_bloomPutOne_extends (data : List U8) (hashes : List (List U8 → U32))
    (f : bloom_filter) :
    f.Extends (hashes.foldl (bloomPutOne data) f) := by
  induction hashes generalizing f with
  | nil => exact .refl f
  | cons first rest ih => exact (bloomPutOne_extends data f first).trans (ih _)

/-- The loop keeps the bits, and sets those of its hashes. -/
theorem bit_foldl_bloomPutOne (data : List U8) (hashes : List (List U8 → U32)) {f : bloom_filter}
    (hsize : 0 < f.vect.size) (i : Nat) :
    (hashes.foldl (bloomPutOne data) f).vect.bit i = true ↔
      f.vect.bit i = true ∨ ∃ hash ∈ hashes, i = (hash data).toNat % f.vect.size := by
  induction hashes generalizing f with
  | nil => simp
  | cons first rest ih =>
    have hone := (bloomPutOne_extends data f first).size
    rw [List.foldl_cons, ih (by rw [hone]; exact hsize), hone, bit_bloomPutOne data first hsize]
    simp [or_assoc]

theorem bloom_filter_put_extends (f : bloom_filter) (data : List U8) :
    f.Extends (bloom_filter_put f data) := foldl_bloomPutOne_extends data _ f

/-- What a filter holds behind a put: what it held, where the new bits count too. -/
theorem bloom_filter_test_put_iff {f : bloom_filter} (data key : List U8)
    (hsize : 0 < f.vect.size) :
    bloom_filter_test (bloom_filter_put f data) key = true ↔
      ∀ hash ∈ f.hash_functions, f.vect.bit ((hash key).toNat % f.vect.size) = true ∨
        ∃ put ∈ f.hash_functions, (hash key).toNat % f.vect.size =
          (put data).toNat % f.vect.size := by
  have hext := bloom_filter_put_extends f data
  rw [bloom_filter_test_iff, hext.hashes, hext.size]
  unfold bloom_filter_put
  simp only [bit_foldl_bloomPutOne data _ hsize]

/-- What was put into the filter is in it. -/
theorem bloom_filter_test_put {f : bloom_filter} (data : List U8) (hsize : 0 < f.vect.size) :
    bloom_filter_test (bloom_filter_put f data) data = true := by
  rw [bloom_filter_test_put_iff data data hsize]
  intro hash hmem
  exact .inr ⟨hash, hmem, rfl⟩

/-! ## The words of a vector -/

/-- Every index that the accessors admit has its word in the memory of the vector. -/
def bit_vect.Fits (vect : bit_vect) : Prop := ∀ bit_idx < vect.size, bit_idx / 32 < vect.words

theorem bit_vect_new_fits {num_bits : Nat} (h : num_bits % 32 = 0) :
    (bit_vect_new num_bits).Fits := by
  unfold bit_vect.Fits bit_vect_new
  dsimp only
  rw [if_pos h]
  intro bit_idx hlt
  exact Nat.lt_succ_of_le (Nat.div_le_div_right (Nat.le_of_lt hlt))

/-- The remainder test of `bit_vect_new` is the wrong way round: the vector has a word to spare
when its bits fill whole words, and lacks the last word when they do not. -/
theorem bit_vect_new_fits_iff (num_bits : Nat) (hpos : 1 ≤ num_bits) :
    (bit_vect_new num_bits).Fits ↔ num_bits % 32 = 0 := by
  constructor
  · intro hfits
    by_contra hrem
    unfold bit_vect.Fits bit_vect_new at hfits
    dsimp only at hfits
    rw [if_neg hrem] at hfits
    -- The last bit lies in the word that was not allocated.
    have hlast := hfits (num_bits - 1) (by omega)
    omega
  · exact bit_vect_new_fits

theorem bit_vect_new_fits_agent : (bit_vect_new (3 * 1024 * 1024)).Fits :=
  (bit_vect_new_fits_iff (3 * 1024 * 1024) (by decide)).mpr (by decide)

/-- A vector of one bit has no word at all. -/
theorem bit_vect_new_lacks_word : ¬ (bit_vect_new 1).Fits := by
  intro hfits
  have hlast : 0 / 32 < 0 := hfits 0 (by decide)
  exact absurd hlast (by decide)

theorem bit_vect_set1_words {vect vect' : bit_vect} {i : Nat}
    (h : bit_vect_set1 vect i = some vect') :
    vect'.words = vect.words := by
  unfold bit_vect_set1 bit_vect_set at h
  split at h
  · cases h
  · obtain rfl := Option.some.inj h
    rfl

theorem bloomPutOne_words (data : List U8) (f : bloom_filter) (hash : List U8 → U32) :
    (bloomPutOne data f hash).vect.words = f.vect.words := by
  unfold bloomPutOne
  split
  · rename_i vect hset
    exact bit_vect_set1_words hset
  · rfl

theorem bloom_filter_put_words (f : bloom_filter) (data : List U8) :
    (bloom_filter_put f data).vect.words = f.vect.words := by
  unfold bloom_filter_put
  generalize f.hash_functions = hashes
  induction hashes generalizing f with
  | nil => rfl
  | cons first rest ih => rw [List.foldl_cons, ih, bloomPutOne_words]

/-! ## What a history of puts leaves in the filter -/

/-- The filter behind the puts of a history. -/
def bloom_filter.puts (f : bloom_filter) (history : List (List U8)) : bloom_filter :=
  history.foldl bloom_filter_put f

theorem bloom_filter.puts_extends (f : bloom_filter) (history : List (List U8)) :
    f.Extends (f.puts history) := by
  unfold bloom_filter.puts
  induction history generalizing f with
  | nil => exact .refl f
  | cons first rest ih => exact (bloom_filter_put_extends f first).trans (ih _)

theorem bloom_filter.puts_words (f : bloom_filter) (history : List (List U8)) :
    (f.puts history).vect.words = f.vect.words := by
  unfold bloom_filter.puts
  induction history generalizing f with
  | nil => rfl
  | cons first rest ih => rw [List.foldl_cons, ih, bloom_filter_put_words]

/-- Puts keep the bits, and set those of the strings they are given. -/
theorem bloom_filter.bit_puts (history : List (List U8)) {f : bloom_filter}
    (hsize : 0 < f.vect.size) (i : Nat) :
    (f.puts history).vect.bit i = true ↔
      f.vect.bit i = true ∨
        ∃ x ∈ history, ∃ put ∈ f.hash_functions, i = (put x).toNat % f.vect.size := by
  unfold bloom_filter.puts
  induction history generalizing f with
  | nil => simp
  | cons first rest ih =>
    have hone := bloom_filter_put_extends f first
    rw [List.foldl_cons, ih (by rw [hone.size]; exact hsize), hone.size, hone.hashes]
    unfold bloom_filter_put
    rw [bit_foldl_bloomPutOne first _ hsize]
    simp [or_assoc]

theorem bit_bit_vect_new (num_bits i : Nat) : (bit_vect_new num_bits).bit i = false := by
  unfold bit_vect.bit bit_vect_get bit_vect_new
  dsimp only
  split
  · rfl
  · simp

/-- A new filter of whole words holds exactly the strings whose bits were all set by puts, and
no access of it leaves its words. -/
theorem bloom_filter_is_exact (size : Nat) (hashes : List (List U8 → U32)) (hpos : 0 < size)
    (hwords : size % 32 = 0) (history : List (List U8)) (y : List U8) :
    (bloom_filter_test ((bloom_filter_new size hashes).puts history) y = true ↔
      ∀ hash ∈ hashes, ∃ x ∈ history, ∃ put ∈ hashes,
        (hash y).toNat % size = (put x).toNat % size) ∧
    (y ∈ history → ∀ later,
      bloom_filter_test ((bloom_filter_new size hashes).puts (history ++ later)) y = true) ∧
    ((bloom_filter_new size hashes).puts history).vect.Fits := by
  have htest : ∀ l, bloom_filter_test ((bloom_filter_new size hashes).puts l) y = true ↔
      ∀ hash ∈ hashes, ∃ x ∈ l, ∃ put ∈ hashes,
        (hash y).toNat % size = (put x).toNat % size := by
    intro l
    have hext := (bloom_filter_new size hashes).puts_extends l
    have hbit := bloom_filter.bit_puts (f := bloom_filter_new size hashes) l hpos
    have hnew : ∀ i, (bloom_filter_new size hashes).vect.bit i = false := bit_bit_vect_new size
    rw [bloom_filter_test_iff, hext.size, hext.hashes]
    simp only [hbit, hnew, Bool.false_eq_true, false_or]
    rfl
  refine ⟨htest history, ?_, ?_⟩
  · intro hy later
    rw [htest]
    intro hash hmem
    exact ⟨y, List.mem_append_left later hy, hash, hmem, rfl⟩
  · have hfits := bit_vect_new_fits hwords
    have hsize : ((bloom_filter_new size hashes).puts history).vect.size = size :=
      ((bloom_filter_new size hashes).puts_extends history).size
    intro bit_idx hlt
    rw [bloom_filter.puts_words]
    rw [hsize] at hlt
    exact hfits bit_idx hlt

/-- The filter of the agent: it holds a flow that was put into it, with the three hashes. -/
theorem bloom_filter_is_exact_agent :
    bloom_filter_test
      ((bloom_filter_new (3 * 1024 * 1024) [djb2, sdbm, mm2]).puts ([[1, 2]] ++ [[3]]))
      [1, 2] = true :=
  (bloom_filter_is_exact (3 * 1024 * 1024) [djb2, sdbm, mm2] (by decide) (by decide)
    [[1, 2]] [1, 2]).2.1 (by simp) [[3]]

end edge_cookie
