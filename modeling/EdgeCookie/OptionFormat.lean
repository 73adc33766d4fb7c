-- Lists of options in a header: an option is a single no-operation byte, or a
-- kind, a length and a body. The list ends where its area ends, or at a zero byte.
import EdgeCookie.Bytes
import Mathlib.Data.List.GetD

namespace option_format

open bytes

/-- An option. The length byte counts the kind and itself. -/
inductive Opt where
  | nop
  | data (kind : U8) (body : List U8) (hkind : 1 < kind.toNat) (hlen : body.length + 2 < 256)

/-- How many bytes the option takes. -/
def Opt.size : Opt → Nat
  | .nop => 1
  | .data _ body _ _ => body.length + 2

def Opt.encode : Opt → List U8
  | .nop => [1]
  | .data kind body _ _ => kind :: BitVec.ofNat 8 (body.length + 2) :: body

def encode (opts : List Opt) : List U8 := opts.flatMap Opt.encode

theorem Opt.length_encode (opt : Opt) : opt.encode.length = opt.size := by
  cases opt with
  | nop => rfl
  | data kind body hkind hlen => rfl

theorem Opt.size_pos (opt : Opt) : 0 < opt.size := by
  cases opt with
  | nop => exact Nat.one_pos
  | data kind body hkind hlen => exact Nat.succ_pos _

theorem encode_cons (opt : Opt) (opts : List Opt) :
    encode (opt :: opts) = opt.encode ++ encode opts :=
  List.flatMap_cons

theorem length_encode_cons (opt : Opt) (opts : List Opt) :
    (encode (opt :: opts)).length = opt.size + (encode opts).length := by
  rw [encode_cons, List.length_append, opt.length_encode]

/-- Each option takes a byte or more. -/
theorem length_le_encode (opts : List Opt) : opts.length ≤ (encode opts).length := by
  induction opts with
  | nil => exact Nat.le_refl 0
  | cons opt opts ih =>
    have hpos := opt.size_pos
    rw [length_encode_cons, List.length_cons]
    omega

/-- The offset of the first option of a kind. -/
def firstOf (kind : U8) : List Opt → Option Nat
  | [] => none
  | .nop :: opts => (firstOf kind opts).map (1 + ·)
  | .data k body _ _ :: opts =>
    if k = kind then some 0 else (firstOf kind opts).map (body.length + 2 + ·)

/-- The bytes from `a` to `e` are the options, and behind them the end of the
area or of the list. -/
structure Area (m : Mem) (a e : Nat) (opts : List Opt) : Prop where
  bytes : ∀ i < (encode opts).length, m (a + i) = (encode opts).getD i 0
  inside : a + (encode opts).length ≤ e
  stop : a + (encode opts).length = e ∨ m (a + (encode opts).length) = 0

section

variable {m : Mem} {a e : Nat} {opt : Opt} {opts : List Opt}

/-- Behind its first option an area is an area again. -/
theorem Area.tail (h : Area m a e (opt :: opts)) : Area m (a + opt.size) e opts := by
  have hlen := length_encode_cons opt opts
  have hsum : a + opt.size + (encode opts).length = a + (encode (opt :: opts)).length := by omega
  refine ⟨fun i hi => ?_, by have := h.inside; omega, by rw [hsum]; exact h.stop⟩
  have hbyte := h.bytes (opt.size + i) (by omega)
  rw [encode_cons, List.getD_append_right _ _ _ _ (by rw [opt.length_encode]; omega),
    opt.length_encode, Nat.add_sub_cancel_left] at hbyte
  rw [Nat.add_assoc]
  exact hbyte

theorem Area.head (h : Area m a e (opt :: opts)) {i : Nat} (hi : i < opt.size) :
    m (a + i) = opt.encode.getD i 0 := by
  have hbyte := h.bytes i (by have := length_encode_cons opt opts; omega)
  rw [encode_cons, List.getD_append _ _ _ _ (by rw [opt.length_encode]; exact hi)] at hbyte
  exact hbyte

theorem Area.size_inside (h : Area m a e (opt :: opts)) : a + opt.size ≤ e := by
  have hlen := length_encode_cons opt opts
  have hinside := h.inside
  omega

/-- The first option of a kind lies in the area with all its bytes. -/
theorem Area.first (h : Area m a e opts) {kind : U8} {off : Nat}
    (hfirst : firstOf kind opts = some off) :
    m (a + off) = kind ∧ ∃ body hkind hlen, .data kind body hkind hlen ∈ opts ∧
      a + off + (body.length + 2) ≤ e := by
  induction opts generalizing a off with
  | nil => cases hfirst
  | cons opt opts ih =>
    cases opt with
    | nop =>
      obtain ⟨off', hoff', rfl⟩ := Option.map_eq_some_iff.mp hfirst
      obtain ⟨hbyte, body, hkind, hlen, hmem, hfits⟩ := ih h.tail hoff'
      rw [show a + Opt.nop.size + off' = a + (1 + off') from Nat.add_assoc a 1 off'] at hbyte hfits
      exact ⟨hbyte, body, hkind, hlen, List.mem_cons_of_mem _ hmem, hfits⟩
    | data k body hk hl =>
      rw [firstOf] at hfirst
      split at hfirst
      · rename_i hkind
        obtain rfl := Option.some.inj hfirst
        subst hkind
        refine ⟨h.head (i := 0) (Nat.succ_pos _), body, hk, hl, List.mem_cons_self, h.size_inside⟩
      · obtain ⟨off', hoff', rfl⟩ := Option.map_eq_some_iff.mp hfirst
        obtain ⟨hbyte, body', hkind, hlen, hmem, hfits⟩ := ih h.tail hoff'
        rw [show a + (Opt.data k body hk hl).size + off' = a + (body.length + 2 + off') from
          Nat.add_assoc a (body.length + 2) off'] at hbyte hfits
        exact ⟨hbyte, body', hkind, hlen, List.mem_cons_of_mem _ hmem, hfits⟩

end

end option_format
