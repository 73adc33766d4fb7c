-- The law of the packets. Every packet that comes in is processed once, in the
-- order in which its interface received it, and leaves as the network function
-- left it, in the order of the calls. No write for one packet reaches the bytes
-- of another, since every frame is in one place.
import EdgeCookie.PacketPath
import EdgeCookie.SwitchAgent
import Mathlib.Data.List.Forall2

namespace edge_cookie.xsknf

open bytes batch runs
open switch_agent (Options Agent xsknf_packet_processor client_ip server_ip)

variable {conf : xsknf_config} {σ : Type} {e : Nat}

/-! ## The places of the frames -/

/-- The rings of a socket, and the row for its interface in the hands of the
worker. -/
inductive Part where
  | fq
  | rx
  | tx
  | cq
  | hand
  deriving DecidableEq

instance : Fintype Part where
  elems := {.fq, .rx, .tx, .cq, .hand}
  complete := by
    intro part
    cases part with
    | _ => decide

/-- The row for the interface that is still to send. -/
def Phase.row (phase : Phase conf) (j : Fin conf.num_interfaces) : List pkt_info :=
  match phase with
  | .sending _ i rows => if i ≤ j.val then rows j else []
  | _ => []

/-- The frames at a place. -/
def Worker.framesAt (w : Worker conf) (place : Fin conf.num_interfaces × Part) : Multiset Nat :=
  match place.2 with
  | .fq => framesOf conf (w.xsks place.1).fq.entries
  | .rx => pktFrames conf (w.xsks place.1).rx.entries
  | .tx => pktFrames conf (w.xsks place.1).tx.entries
  | .cq => framesOf conf (w.xsks place.1).cq.entries
  | .hand => pktFrames conf (w.phase.row place.1)

theorem sum_row (phase : Phase conf) : ∑ j, pktFrames conf (phase.row j) = handFrames phase := by
  cases phase with
  | idle => exact Finset.sum_eq_zero fun _ _ => rfl
  | exited => exact Finset.sum_eq_zero fun _ _ => rfl
  | sending ifindex i rows =>
    apply Fintype.sum_congr
    intro j
    simp only [Phase.row]
    split
    · rfl
    · rfl

theorem sum_framesAt (w : Worker conf) :
    ∑ place, w.framesAt place = ringFrames w.xsks + handFrames w.phase := by
  have hone : ∀ j, ∑ r, w.framesAt (j, r) =
      (w.xsks j).frames conf + pktFrames conf (w.phase.row j) := by
    intro j
    have huniv : (Finset.univ : Finset Part) = {.fq, .rx, .tx, .cq, .hand} := rfl
    rw [huniv]
    simp [Worker.framesAt, xsk_socket_info.frames]
    abel
  rw [Fintype.sum_prod_type, Fintype.sum_congr _ _ hone, Finset.sum_add_distrib, sum_row]
  rfl

/-- A frame is at one place. -/
theorem Conserved.apart {w : Worker conf} (h : Conserved w) {s t : Fin conf.num_interfaces × Part}
    (hne : s ≠ t) {f : Nat} (hs : f ∈ w.framesAt s) : f ∉ w.framesAt t := by
  have hle : w.framesAt s + w.framesAt t ≤ ∑ place, w.framesAt place := by
    rw [← Finset.sum_pair hne]
    exact Finset.sum_le_sum_of_subset (Finset.subset_univ _)
  rw [sum_framesAt, h.frames] at hle
  have hnodup := Multiset.nodup_of_le hle (Multiset.nodup_range _)
  exact Multiset.disjoint_left.mp (Multiset.nodup_add.mp hnodup).2.2 hs

/-- And once. -/
theorem Conserved.nodup {w : Worker conf} (h : Conserved w) (s : Fin conf.num_interfaces × Part) :
    (w.framesAt s).Nodup := by
  have hle : w.framesAt s ≤ ∑ place, w.framesAt place :=
    Finset.single_le_sum_of_canonicallyOrdered (Finset.mem_univ s)
  rw [sum_framesAt, h.frames] at hle
  exact Multiset.nodup_of_le hle (Multiset.nodup_range _)

/-- A frame at a place is one of the memory, so its addresses are small. -/
theorem Conserved.addr_lt {w : Worker conf} (ha : Aligned conf e) (hfit : AddressesFit conf)
    (h : Conserved w) {s : Fin conf.num_interfaces × Part} {addr : Nat}
    (hs : frame conf addr ∈ w.framesAt s) : addr < 2 ^ 32 := by
  have hle : w.framesAt s ≤ ∑ place, w.framesAt place :=
    Finset.single_le_sum_of_canonicallyOrdered (Finset.mem_univ s)
  rw [sum_framesAt, h.frames] at hle
  have hlt : frame conf addr < conf.num_interfaces * FRAMES_PER_SOCKET :=
    Multiset.mem_range.mp (Multiset.mem_of_le hle hs)
  have hpos : 0 < conf.xsk_frame_size := by
    rw [ha.size]
    exact Nat.two_pow_pos e
  exact Nat.lt_of_lt_of_le ((Nat.div_lt_iff_lt_mul hpos).mp hlt) hfit

theorem frame_mem_pktFrames {pkts : List pkt_info} {pkt : pkt_info} (h : pkt ∈ pkts) :
    frame conf pkt.addr ∈ pktFrames conf pkts := by
  unfold pktFrames
  exact Multiset.mem_coe.mpr (List.mem_map.mpr ⟨pkt, h, rfl⟩)

/-! ## The bytes of a packet -/

/-- The packet lies in its frame, with `room` bytes from its start. -/
structure InRoom (conf : xsknf_config) (room : Nat) (pkt : pkt_info) : Prop where
  fits : pkt.addr % conf.xsk_frame_size + room ≤ conf.xsk_frame_size
  len : pkt.len ≤ room

/-- A packet that came in, of at most `mtu` bytes. -/
structure Arrived (conf : xsknf_config) (mtu room : Nat) (pkt : pkt_info) : Prop
    extends InRoom conf room pkt where
  short : pkt.len ≤ mtu

/-- The bytes of a packet. -/
def content (m : Mem) (pkt : pkt_info) : Packet := read m pkt.addr pkt.len

/-- The memories have the same bytes outside the frames. -/
def SameOff (conf : xsknf_config) (frames : Multiset Nat) (m m' : Mem) : Prop :=
  ∀ a, frame conf a ∉ frames → m' a = m a

section

variable {room : Nat} {pkt : pkt_info} {m m' m'' : Mem} {frames : Multiset Nat}

theorem SameOff.refl : SameOff conf frames m m := fun _ _ => rfl

theorem SameOff.trans (h : SameOff conf frames m m') (h' : SameOff conf frames m' m'') :
    SameOff conf frames m m'' := fun a ha => (h' a ha).trans (h a ha)

theorem SameOff.mono {frames' : Multiset Nat} (h : SameOff conf frames m m')
    (hle : frames ⊆ frames') :
    SameOff conf frames' m m' := fun a ha => h a fun hmem => ha (hle hmem)

/-- The room of a packet is in one frame. -/
theorem InRoom.frame_add (h : InRoom conf room pkt) {i : Nat} (hi : i < room) :
    frame conf (pkt.addr + i) = frame conf pkt.addr := by
  have hfits := h.fits
  have hpos : 0 < conf.xsk_frame_size := by omega
  have hdm := Nat.div_add_mod pkt.addr conf.xsk_frame_size
  have hsum : pkt.addr + i =
      conf.xsk_frame_size * (pkt.addr / conf.xsk_frame_size) +
        (pkt.addr % conf.xsk_frame_size + i) := by omega
  have hlt : pkt.addr % conf.xsk_frame_size + i < conf.xsk_frame_size := by omega
  unfold frame
  rw [hsum, Nat.mul_add_div hpos, Nat.div_eq_of_lt hlt, Nat.add_zero]

/-- Bytes outside the frames that a step writes are as before. -/
theorem InRoom.read_eq (h : InRoom conf room pkt) (hsame : SameOff conf frames m m')
    (hframe : frame conf pkt.addr ∉ frames) {n : Nat} (hn : n ≤ room) :
    read m' pkt.addr n = read m pkt.addr n := by
  apply read_congr
  intro a hle hlt
  obtain ⟨i, rfl⟩ := Nat.exists_eq_add_of_le hle
  apply hsame
  rw [h.frame_add (by omega)]
  exact hframe

theorem InRoom.content_eq (h : InRoom conf room pkt) (hsame : SameOff conf frames m m')
    (hframe : frame conf pkt.addr ∉ frames) : content m' pkt = content m pkt :=
  h.read_eq hsame hframe h.len

/-- A write into the room of a packet stays in its frame. -/
theorem InRoom.sameOff_copy (h : InRoom conf room pkt) {bs : List U8} (hbs : bs.length ≤ room)
    (m : Mem) :
    SameOff conf {frame conf pkt.addr} m (copy m pkt.addr bs) := by
  intro a ha
  apply copy_out
  by_contra hin
  apply ha
  have ⟨i, hi⟩ := Nat.exists_eq_add_of_le (show pkt.addr ≤ a by omega)
  rw [hi, h.frame_add (by omega)]
  exact Multiset.mem_singleton_self _

end

/-! ## The calls of a batch -/

/-- The calls when the network function gets these buffers one after the other,
and the state behind them. -/
def callsOf (nf : NetworkFunction conf σ) :
    σ → List (Fin conf.num_interfaces × List U8 × Nat) → List (Call conf) × σ
  | s, [] => ([], s)
  | s, (ifindex, got, len) :: inputs =>
    let out := nf s ifindex got len
    let (calls, s) := callsOf nf out.state inputs
    (callOf ifindex got len out :: calls, s)

/-- What a call got. -/
def Call.input (c : Call conf) : Fin conf.num_interfaces × List U8 × Nat :=
  (c.ifindex, c.got, c.len)

theorem callsOf_append (nf : NetworkFunction conf σ) (s : σ)
    (l l' : List (Fin conf.num_interfaces × List U8 × Nat)) :
    callsOf nf s (l ++ l') =
      ((callsOf nf s l).1 ++ (callsOf nf (callsOf nf s l).2 l').1,
        (callsOf nf (callsOf nf s l).2 l').2) := by
  induction l generalizing s with
  | nil => rfl
  | cons x l ih => simp only [List.cons_append, callsOf, ih]

/-- The network function keeps to the room of a packet. It may make the packets
longer: those that it gets have at most `mtu` bytes. -/
structure KeepsRoom (mtu room : Nat) (nf : NetworkFunction conf σ) : Prop where
  buffer : ∀ s i got len, got.length = room → len ≤ mtu → (nf s i got len).buffer.length = room
  len : ∀ s i got len, got.length = room → len ≤ mtu → (nf s i got len).len ≤ room

/-- The packet behind its call: the network function left its bytes there. -/
structure Handled (conf : xsknf_config) (room : Nat) (m : Mem) (c : Call conf) (pkt : pkt_info) :
    Prop where
  len : c.newLen ≤ room
  bytes : content m { pkt with len := c.newLen } = c.result

/-- What the loop over a batch does: each packet is processed once, as it was
before the batch, and the frames of no other packet change. -/
structure Processed (conf : xsknf_config) (nf : NetworkFunction conf σ) (room : Nat)
    (ifindex : Fin conf.num_interfaces) (m : Mem) (s : σ) (pkts : List pkt_info)
    (calls : List (Call conf)) (m' : Mem) (s' : σ) : Prop where
  handled : List.Forall₂ (Handled conf room m') calls pkts
  packets : calls.map Call.packet = pkts.map (content m)
  ifindex : ∀ c ∈ calls, c.ifindex = ifindex
  same : SameOff conf (pktFrames conf pkts) m m'
  ran : callsOf nf s (calls.map Call.input) = (calls, s')

theorem add_offset_to_addr_eq {addr : Nat} (h : addr < 2 ^ 32) :
    xsk_umem_add_offset_to_addr addr = addr := by
  have hmask : XSK_UNALIGNED_BUF_ADDR_MASK = 2 ^ 48 - 1 := rfl
  unfold xsk_umem_add_offset_to_addr xsk_umem_extract_addr xsk_umem_extract_offset
    XSK_UNALIGNED_BUF_OFFSET_SHIFT
  rw [hmask, Nat.and_two_pow_sub_one_eq_mod, Nat.shiftRight_eq_div_pow, Nat.mod_eq_of_lt (by omega),
    Nat.div_eq_of_lt (by omega), Nat.add_zero]

theorem processed_of_processPackets {nf : NetworkFunction conf σ} {mtu room : Nat}
    (hnf : KeepsRoom mtu room nf) (ifindex : Fin conf.num_interfaces) {pkts : List pkt_info}
    (hroom : ∀ pkt ∈ pkts, Arrived conf mtu room pkt)
    (haddr : ∀ pkt ∈ pkts, pkt.addr < 2 ^ 32) (hnodup : (pktFrames conf pkts).Nodup) (m : Mem)
    (s : σ) :
    Processed conf nf room ifindex m s pkts (processPackets nf room ifindex m s pkts).1
      (processPackets nf room ifindex m s pkts).2.1
        (processPackets nf room ifindex m s pkts).2.2 := by
  induction pkts generalizing m s with
  | nil => exact ⟨.nil, rfl, fun c hc => (List.not_mem_nil hc).elim, .refl, rfl⟩
  | cons pkt pkts ih =>
    have hpkt := hroom pkt List.mem_cons_self
    have hsplit : pktFrames conf (pkt :: pkts) = frame conf pkt.addr ::ₘ pktFrames conf pkts := rfl
    rw [hsplit, Multiset.nodup_cons] at hnodup
    have hout : (nf s ifindex (read m pkt.addr room) pkt.len).buffer.length = room :=
      hnf.buffer _ _ _ _ (length_read _ _ _) hpkt.short
    have hlen : (nf s ifindex (read m pkt.addr room) pkt.len).len ≤ room :=
      hnf.len _ _ _ _ (length_read _ _ _) hpkt.short
    have hrest := ih (fun q hq => hroom q (List.mem_cons_of_mem pkt hq))
      (fun q hq => haddr q (List.mem_cons_of_mem pkt hq)) hnodup.2
      (copy m pkt.addr (nf s ifindex (read m pkt.addr room) pkt.len).buffer)
      (nf s ifindex (read m pkt.addr room) pkt.len).state
    have hfirst : SameOff conf {frame conf pkt.addr} m
        (copy m pkt.addr (nf s ifindex (read m pkt.addr room) pkt.len).buffer) :=
      hpkt.sameOff_copy (Nat.le_of_eq hout) m
    have heq := add_offset_to_addr_eq (haddr pkt List.mem_cons_self)
    have htail :
        pkts.map (content (copy m pkt.addr (nf s ifindex (read m pkt.addr room) pkt.len).buffer)) =
        pkts.map (content m) := by
      apply List.map_congr_left
      intro q hq
      refine (hroom q (List.mem_cons_of_mem pkt hq)).content_eq hfirst ?_
      rw [Multiset.mem_singleton]
      intro heq
      exact hnodup.1 (heq ▸ frame_mem_pktFrames hq)
    simp only [processPackets, heq]
    refine ⟨.cons ⟨hlen, ?_⟩ hrest.handled, ?_, ?_, ?_, ?_⟩
    · -- the writes for the packets behind it do not reach this one
      exact (hpkt.read_eq hrest.same hnodup.1 hlen).trans
        (read_copy m pkt.addr (hlen.trans_eq hout.symm))
    · rw [List.map_cons, List.map_cons, hrest.packets, htail]
      congr 1
      exact take_read m pkt.addr hpkt.len
    · intro c hc
      rcases List.mem_cons.mp hc with rfl | hc
      · rfl
      · exact hrest.ifindex c hc
    · rw [hsplit]
      refine SameOff.trans (hfirst.mono ?_) (hrest.same.mono ?_)
      · exact Multiset.singleton_subset.mpr (Multiset.mem_cons_self _ _)
      · exact Multiset.subset_cons _ _
    · rw [List.map_cons]
      simp only [callsOf, Call.input, callOf, hrest.ran]

/-! ## The rows of a batch -/

/-- The entry of a packet behind its call. -/
def entryOf (c : Call conf) (pkt : pkt_info) : Option (Fin conf.num_interfaces) × pkt_info :=
  (c.verdict, { pkt with len := c.newLen })

theorem sorted_processorOf {calls : List (Call conf)} {pkts : List pkt_info}
    (hlen : calls.length = pkts.length) :
    sorted (processorOf calls) pkts = List.zipWith entryOf calls pkts := by
  apply List.ext_getElem
  · rw [length_sorted, List.length_zipWith, hlen, Nat.min_self]
  · intro k hk hk'
    have hin : k < calls.length := by
      rw [length_sorted] at hk
      omega
    simp only [sorted, List.getElem_mapIdx, List.getElem_zipWith, processorOf,
      List.getElem?_eq_getElem hin]
    rfl

section

variable {room : Nat} {m : Mem} {calls : List (Call conf)} {pkts : List pkt_info}

theorem rowOf_zipWith (h : List.Forall₂ (Handled conf room m) calls pkts)
    (k : Option (Fin conf.num_interfaces)) :
    (rowOf (List.zipWith entryOf calls pkts) k).map (content m) =
      (calls.filter (·.verdict = k)).map Call.result := by
  induction h with
  | nil => rfl
  | @cons c pkt calls pkts hc _ ih =>
    unfold rowOf at ih ⊢
    rw [List.zipWith_cons_cons, List.filter_cons, List.filter_cons]
    by_cases hk : c.verdict = k
    · have hk' : (entryOf c pkt).1 = k := hk
      simp only [hk, hk', decide_true, if_true, List.map_cons, ih]
      congr 1
      exact hc.bytes
    · have hk' : ¬ (entryOf c pkt).1 = k := hk
      simp only [hk, hk', decide_false, Bool.false_eq_true, if_false, ih]

theorem inRoom_zipWith (h : List.Forall₂ (Handled conf room m) calls pkts)
    (hroom : ∀ pkt ∈ pkts, InRoom conf room pkt) {x : Option (Fin conf.num_interfaces) × pkt_info}
    (hx : x ∈ List.zipWith entryOf calls pkts) : InRoom conf room x.2 := by
  induction h with
  | nil => exact (List.not_mem_nil hx).elim
  | @cons c pkt calls pkts hc _ ih =>
    rw [List.zipWith_cons_cons] at hx
    rcases List.mem_cons.mp hx with rfl | hx
    · exact ⟨(hroom pkt List.mem_cons_self).fits, hc.len⟩
    · exact ih (fun q hq => hroom q (List.mem_cons_of_mem pkt hq)) hx

/-- The packets of a row are those that the calls sent there, in the order of
the calls. -/
theorem map_content_to_tx (h : List.Forall₂ (Handled conf room m) calls pkts)
    (hlen : pkts.length ≤ 255) (k : Option (Fin conf.num_interfaces)) :
    (to_tx (processorOf calls) pkts k).map (content m) =
      (calls.filter (·.verdict = k)).map Call.result := by
  unfold to_tx
  rw [spread_eq_rowOf (by rw [length_sorted]; exact hlen), sorted_processorOf h.length_eq]
  exact rowOf_zipWith h k

theorem inRoom_to_tx (h : List.Forall₂ (Handled conf room m) calls pkts) (hlen : pkts.length ≤ 255)
    (hroom : ∀ pkt ∈ pkts, InRoom conf room pkt) {k : Option (Fin conf.num_interfaces)}
    {pkt : pkt_info} (hpkt : pkt ∈ to_tx (processorOf calls) pkts k) : InRoom conf room pkt := by
  unfold to_tx at hpkt
  rw [spread_eq_rowOf (by rw [length_sorted]; exact hlen), sorted_processorOf h.length_eq,
    mem_rowOf] at hpkt
  exact inRoom_zipWith h hroom hpkt

end

/-! ## A row in another memory -/

/-- The bytes of a row are in the other memory, and the frames of no other
packet change there. -/
theorem copyRow_spec {room : Nat} {row : List pkt_info} (hroom : ∀ pkt ∈ row, InRoom conf room pkt)
    (hnodup : (pktFrames conf row).Nodup) (src dst : Mem) :
    SameOff conf (pktFrames conf row) dst (copyRow src dst row) ∧
      row.map (content (copyRow src dst row)) = row.map (content src) := by
  induction row generalizing dst with
  | nil => exact ⟨.refl, rfl⟩
  | cons pkt row ih =>
    have hpkt := hroom pkt List.mem_cons_self
    have hsplit : pktFrames conf (pkt :: row) = frame conf pkt.addr ::ₘ pktFrames conf row := rfl
    rw [hsplit, Multiset.nodup_cons] at hnodup
    have hlen : (read src pkt.addr pkt.len).length = pkt.len := length_read _ _ _
    have hfirst :
        SameOff conf {frame conf pkt.addr} dst (copy dst pkt.addr (read src pkt.addr pkt.len)) :=
      hpkt.sameOff_copy (hlen.trans_le hpkt.len) dst
    obtain ⟨hsame, hrest⟩ := ih (fun q hq => hroom q (List.mem_cons_of_mem pkt hq)) hnodup.2
      (copy dst pkt.addr (read src pkt.addr pkt.len))
    rw [copyRow, hsplit]
    constructor
    · refine SameOff.trans (hfirst.mono ?_) (hsame.mono ?_)
      · exact Multiset.singleton_subset.mpr (Multiset.mem_cons_self _ _)
      · exact Multiset.subset_cons _ _
    · rw [List.map_cons, List.map_cons, hrest, hpkt.content_eq hsame hnodup.1]
      congr 1
      unfold content
      rw [read_copy _ _ (Nat.le_of_eq hlen.symm), List.take_of_length_le (Nat.le_of_eq hlen)]

/-! ## The invariant -/

/-- The packets that wait to be processed, oldest first. -/
def waiting (p : Setup conf σ) (d : Engine conf σ) (j : Fin conf.num_interfaces) : List Packet :=
  (d.w.xsks j).rx.entries.map (content (d.umem (p.memory j)))

/-- The packets of the row that is still to send to the interface. -/
def inHand (p : Setup conf σ) (umem : Buffer → Mem) (phase : Phase conf)
    (i : Fin conf.num_interfaces) : List Packet :=
  match phase with
  | .sending ifindex _ _ => (phase.row i).map (content (umem (p.memory ifindex)))
  | _ => []

/-- The packets that are processed and wait to go out, oldest first. -/
def pending (p : Setup conf σ) (d : Engine conf σ) (i : Fin conf.num_interfaces) : List Packet :=
  (d.w.xsks i).tx.entries.map (content (d.umem (p.memory i))) ++ inHand p d.umem d.w.phase i

structure Faithful (p : Setup conf σ) (mtu : Nat) (s₀ : σ) (d : Engine conf σ) : Prop where
  conserved : Conserved d.w
  rx : ∀ j, ∀ pkt ∈ (d.w.xsks j).rx.entries, Arrived conf mtu p.room pkt
  tx : ∀ j, ∀ pkt ∈ (d.w.xsks j).tx.entries, InRoom conf p.room pkt
  hand : ∀ j, ∀ pkt ∈ d.w.phase.row j, InRoom conf p.room pkt
  ran : callsOf p.nf s₀ (d.calls.map Call.input) = (d.calls, d.state)
  arrived : ∀ j, d.arrived j = (d.calls.filter (·.ifindex = j)).map Call.packet ++ waiting p d j
  sent : ∀ i, (d.calls.filter (·.verdict = some i)).map Call.result = d.sent i ++ pending p d i

section

variable {p : Setup conf σ} {mtu : Nat} {s₀ : σ} {d : Engine conf σ} {umem : Buffer → Mem}
  {frames : Multiset Nat} {xsks : Xsks conf} {ifindex : Fin conf.num_interfaces} {seen : Nat}

/-- Packets whose frames are not written are as before. -/
theorem map_content_eq {room : Nat} {pkts : List pkt_info} {m m' : Mem}
    (hroom : ∀ pkt ∈ pkts, InRoom conf room pkt) (hsame : SameOff conf frames m m')
    (hoff : ∀ pkt ∈ pkts, frame conf pkt.addr ∉ frames) :
    pkts.map (content m') = pkts.map (content m) :=
  List.map_congr_left fun pkt hpkt => (hroom pkt hpkt).content_eq hsame (hoff pkt hpkt)

theorem sameOff_update {b : Buffer} {m : Mem} (h : SameOff conf frames (umem b) m) (b' : Buffer) :
    SameOff conf frames (umem b') (Function.update umem b m b') := by
  by_cases hb : b' = b
  · subst hb
    rw [Function.update_self]
    exact h
  · rw [Function.update_of_ne hb]
    exact .refl

/-- A call of `complete_tx` touches no packet. -/
theorem Faithful.complete_tx (h : Faithful p mtu s₀ d) (hc : Completed seen d.w.xsks xsks ifindex)
    (hcons : Conserved ⟨xsks, d.w.phase⟩) :
    Faithful p mtu s₀ { d with w := ⟨xsks, d.w.phase⟩ } where
  conserved := hcons
  rx j := by
    rw [hc.rx j]
    exact h.rx j
  tx j := by
    rw [hc.tx j]
    exact h.tx j
  hand := h.hand
  ran := h.ran
  arrived j := by
    rw [h.arrived j, waiting, waiting, hc.rx j]
  sent i := by
    rw [h.sent i, pending, pending, hc.tx i]

/-! ## Writes into the frames of one place -/

section

variable {s : Fin conf.num_interfaces × Part} {j : Fin conf.num_interfaces}

/-- Packets at another place have other frames. -/
theorem Faithful.off (h : Faithful p mtu s₀ d) (hF : frames ⊆ d.w.framesAt s)
    {t : Fin conf.num_interfaces × Part} (hne : s ≠ t) {pkts : List pkt_info}
    (ht : pktFrames conf pkts ≤ d.w.framesAt t) :
    ∀ pkt ∈ pkts, frame conf pkt.addr ∉ frames := by
  intro pkt hpkt hmem
  exact h.conserved.apart hne (hF hmem) (Multiset.mem_of_le ht (frame_mem_pktFrames hpkt))

theorem Faithful.waiting_eq (h : Faithful p mtu s₀ d) (hF : frames ⊆ d.w.framesAt s)
    (hsame : ∀ b, SameOff conf frames (d.umem b) (umem b)) (hne : s ≠ (j, .rx)) :
    (d.w.xsks j).rx.entries.map (content (umem (p.memory j))) = waiting p d j :=
  map_content_eq (fun pkt hpkt => (h.rx j pkt hpkt).toInRoom) (hsame _) (h.off hF hne le_rfl)

/-- The packets of a receive ring behind those that are written. -/
theorem Faithful.rest_eq (h : Faithful p mtu s₀ d) {pkts rest : List pkt_info}
    (hsplit : (d.w.xsks j).rx.entries = pkts ++ rest)
    (hsame : ∀ b, SameOff conf (pktFrames conf pkts) (d.umem b) (umem b)) :
    rest.map (content (umem (p.memory j))) = rest.map (content (d.umem (p.memory j))) := by
  have hnodup := h.conserved.nodup (j, .rx)
  have hframes : d.w.framesAt (j, .rx) = pktFrames conf pkts + pktFrames conf rest := by
    rw [← pktFrames_append, ← hsplit]
    rfl
  rw [hframes, Multiset.nodup_add] at hnodup
  refine map_content_eq (fun pkt hpkt => (h.rx j pkt ?_).toInRoom) (hsame _) ?_
  · rw [hsplit]
    exact List.mem_append_right _ hpkt
  · intro pkt hpkt hmem
    exact Multiset.disjoint_left.mp hnodup.2.2 hmem (frame_mem_pktFrames hpkt)

theorem Faithful.tx_eq (h : Faithful p mtu s₀ d) (hF : frames ⊆ d.w.framesAt s)
    (hsame : ∀ b, SameOff conf frames (d.umem b) (umem b)) (hne : s ≠ (j, .tx)) :
    (d.w.xsks j).tx.entries.map (content (umem (p.memory j))) =
      (d.w.xsks j).tx.entries.map (content (d.umem (p.memory j))) :=
  map_content_eq (h.tx j) (hsame _) (h.off hF hne le_rfl)

theorem Faithful.inHand_eq (h : Faithful p mtu s₀ d) (hF : frames ⊆ d.w.framesAt s)
    (hsame : ∀ b, SameOff conf frames (d.umem b) (umem b)) (hne : s ≠ (j, .hand)) :
    inHand p umem d.w.phase j = inHand p d.umem d.w.phase j := by
  have hrow : ∀ b, (d.w.phase.row j).map (content (umem b)) =
      (d.w.phase.row j).map (content (d.umem b)) :=
    fun b => map_content_eq (h.hand j) (hsame b) (h.off hF hne le_rfl)
  unfold inHand
  split
  · exact hrow _
  · rfl

end

/-! ## The kernel's steps -/

theorem Faithful.receive (ha : Aligned conf e) (h : Faithful p mtu s₀ d)
    (i : Fin conf.num_interfaces) {offset : Nat} {pkt : Packet}
    (hoffset : offset % conf.xsk_frame_size + p.room ≤ conf.xsk_frame_size) (hmtu : mtu ≤ p.room)
    (hlen : pkt.length ≤ mtu) :
    Faithful p mtu s₀ (d.receive p i offset pkt) := by
  have hcons := conserved_step ha h.conserved (.receive i offset pkt.length)
  unfold Engine.receive
  dsimp only
  split
  · exact h
  cases hfq : (d.w.xsks i).fq.entries with
  | nil => exact h
  | cons addr rest =>
    dsimp only
    have hframe := frame_in_frame ha addr offset
    have hmod : (addr / conf.xsk_frame_size * conf.xsk_frame_size + offset % conf.xsk_frame_size) %
        conf.xsk_frame_size = offset % conf.xsk_frame_size := by
      rw [Nat.mul_comm, Nat.mul_add_mod, Nat.mod_mod]
    generalize hplace : addr / conf.xsk_frame_size * conf.xsk_frame_size +
      offset % conf.xsk_frame_size = place
      at hframe hmod
    cases hrx : (d.w.xsks i).rx.produce [⟨place, pkt.length⟩] with
    | none => exact h
    | some rx =>
      have hk : kernelReceive conf offset pkt.length (d.w.xsks i) =
          { d.w.xsks i with fq := (d.w.xsks i).fq.release 1, rx := rx } := by
        simp only [kernelReceive, hfq, hplace, hrx]
      have hnew : Arrived conf mtu p.room ⟨place, pkt.length⟩ :=
        ⟨⟨by rw [hmod]; exact hoffset, hlen.trans hmtu⟩, hlen⟩
      have hF : {frame conf place} ⊆ d.w.framesAt (i, .fq) := by
        rw [Multiset.singleton_subset, hframe]
        simp [Worker.framesAt, framesOf, hfq]
      have hsame : ∀ b, SameOff conf {frame conf place} (d.umem b)
          (Function.update d.umem (p.memory i) (copy (d.umem (p.memory i)) place pkt) b) :=
        sameOff_update (hnew.sameOff_copy hnew.len _)
      have hw : ∀ j, ((step d.w (.receive i offset pkt.length)).xsks j).tx = (d.w.xsks j).tx ∧
          ((step d.w (.receive i offset pkt.length)).xsks j).rx =
            if j = i then rx else (d.w.xsks j).rx := by
        intro j
        simp only [step, hk]
        by_cases hj : j = i
        · subst hj
          simp
        · simp [hj]
      dsimp only
      refine ⟨hcons, ?_, ?_, h.hand, h.ran, ?_, ?_⟩
      · intro j q hq
        rw [(hw j).2] at hq
        split at hq
        · rw [Fifo.produce_eq_some hrx] at hq
          rcases List.mem_append.mp hq with hq | hq
          · exact h.rx i q hq
          · rw [List.mem_singleton.mp hq]
            exact hnew
        · exact h.rx j q hq
      · intro j
        rw [(hw j).1]
        exact h.tx j
      · intro j
        unfold waiting
        rw [(hw j).2]
        dsimp only
        by_cases hj : j = i
        · subst hj
          have hbytes : content (copy (d.umem (p.memory j)) place pkt) ⟨place, pkt.length⟩ = pkt :=
            (read_copy _ _ (Nat.le_refl _)).trans (List.take_length)
          have hold := h.waiting_eq (j := j) hF hsame (by simp)
          rw [if_pos rfl, Fifo.produce_eq_some hrx, List.map_append, List.map_singleton, hold,
            Function.update_self, Function.update_self, hbytes, h.arrived j, List.append_assoc]
        · rw [if_neg hj, Function.update_of_ne hj, h.arrived j, h.waiting_eq hF hsame (by simp)]
      · intro k
        unfold pending
        rw [(hw k).1, h.tx_eq hF hsame (by simp)]
        exact (h.sent k).trans (congrArg _ (congrArg _ (h.inHand_eq hF hsame (by simp)).symm))

theorem Faithful.transmit (ha : Aligned conf e) (h : Faithful p mtu s₀ d)
    (i : Fin conf.num_interfaces) :
    Faithful p mtu s₀ (d.transmit p i) := by
  have hcons := conserved_step ha h.conserved (.transmit i)
  unfold Engine.transmit
  cases htx : (d.w.xsks i).tx.entries with
  | nil => exact h
  | cons pkt rest =>
    dsimp only
    cases hcq : (d.w.xsks i).cq.produce [pkt.addr] with
    | none => exact h
    | some cq =>
      have hk : kernelTransmit (d.w.xsks i) =
          { d.w.xsks i with tx := (d.w.xsks i).tx.release 1, cq := cq } := by
        simp only [kernelTransmit, htx, hcq]
      have hw : ∀ j, ((step d.w (.transmit i)).xsks j).rx = (d.w.xsks j).rx ∧
          ((step d.w (.transmit i)).xsks j).tx.entries =
            if j = i then rest else (d.w.xsks j).tx.entries := by
        intro j
        simp only [step, hk]
        by_cases hj : j = i
        · subst hj
          simp [Fifo.entries_release_one htx]
        · simp [hj]
      dsimp only
      refine ⟨hcons, ?_, ?_, h.hand, h.ran, ?_, ?_⟩
      · intro j
        rw [(hw j).1]
        exact h.rx j
      · intro j q hq
        rw [(hw j).2] at hq
        split at hq
        · exact h.tx i q (by rw [htx]; exact List.mem_cons_of_mem pkt hq)
        · exact h.tx j q hq
      · intro j
        unfold waiting
        rw [(hw j).1]
        exact h.arrived j
      · intro k
        have hsent := h.sent k
        unfold pending at hsent ⊢
        rw [(hw k).2]
        dsimp only
        by_cases hk : k = i
        · subst hk
          rw [htx] at hsent
          rw [if_pos rfl, Function.update_self, hsent]
          simp [content, step]
        · rw [if_neg hk, Function.update_of_ne hk]
          exact hsent

/-! ## The worker's steps -/

/-- What the batch of a call does to the rings and the hands of the worker. -/
structure Sorted (conf : xsknf_config) (p : Setup conf σ) (umem : Buffer → Mem) (seen : Nat)
    (ifindex : Fin conf.num_interfaces) (calls : List (Call conf)) (xsks : Xsks conf)
    (w : Worker conf) : Prop where
  rx : ∀ j, (w.xsks j).rx.entries =
    if j = ifindex then ((xsks j).rx.release ((xsks j).rx.peek conf.batch_size seen)).entries
    else (xsks j).rx.entries
  tx : ∀ j, (w.xsks j).tx = (xsks j).tx
  inHand : ∀ i, inHand p umem w.phase i = (calls.filter (·.verdict = some i)).map Call.result
  hand : ∀ j, ∀ pkt ∈ w.phase.row j, InRoom conf p.room pkt

theorem sorted_receiveBatch (ha : Aligned conf e) {calls : List (Call conf)}
    (hhandled : List.Forall₂ (Handled conf p.room (umem (p.memory ifindex))) calls
      (received conf seen (xsks ifindex)))
    (hroom : ∀ pkt ∈ received conf seen (xsks ifindex), InRoom conf p.room pkt)
    (hrunning : (receiveBatch seen (processorOf calls) xsks ifindex).phase ≠ .exited) :
    Sorted conf p umem seen ifindex calls xsks
      (receiveBatch seen (processorOf calls) xsks ifindex) := by
  have hlen : (received conf seen (xsks ifindex)).length ≤ 255 :=
    Nat.le_trans (length_received_le _) ha.batch
  rcases receiveBatch_cases seen (processorOf calls) xsks ifindex with
    ⟨hzero, heq⟩ | ⟨xsk, ⟨fq, rfl, -⟩, heq⟩ | ⟨-, heq⟩
  · -- there is no packet, and so no call
    have hnone : received conf seen (xsks ifindex) = [] := by
      unfold received Fifo.first
      rw [hzero, List.take_zero]
    rw [hnone] at hhandled
    cases hhandled
    rw [heq]
    refine ⟨?_, fun _ => rfl, fun _ => rfl, ?_⟩
    · intro j
      split
      · rename_i hj
        subst hj
        rw [hzero]
        rfl
      · rfl
    · intro j pkt hpkt
      cases hpkt
  · rw [heq]
    refine ⟨?_, ?_, ?_, ?_⟩
    · intro j
      by_cases hj : j = ifindex
      · subst hj
        simp
      · simp [hj]
    · intro j
      by_cases hj : j = ifindex
      · subst hj
        simp
      · simp [hj]
    · intro i
      exact map_content_to_tx hhandled hlen (some i)
    · intro j pkt hpkt
      exact inRoom_to_tx hhandled hlen hroom hpkt
  · rw [heq] at hrunning
    exact absurd rfl hrunning

/-- The batch of a call, when the completed frames are taken. -/
theorem Faithful.batch (ha : Aligned conf e) (hfit : AddressesFit conf)
    (hnf : KeepsRoom mtu p.room p.nf) (h : Faithful p mtu s₀ d) (hidle : d.w.phase = .idle)
    (ifindex : Fin conf.num_interfaces) (seen : Nat) {calls : List (Call conf)} {m : Mem}
    {state : σ} (hcalls : processPackets p.nf p.room ifindex (d.umem (p.memory ifindex)) d.state
      (received conf seen (d.w.xsks ifindex)) = (calls, m, state)) :
    Faithful p mtu s₀ { d with
      w := receiveBatch seen (processorOf calls) d.w.xsks ifindex
      umem := Function.update d.umem (p.memory ifindex) m
      state := state
      calls := d.calls ++ calls } := by
  have hle : pktFrames conf (received conf seen (d.w.xsks ifindex)) ≤ d.w.framesAt (ifindex, .rx) :=
    Multiset.coe_le.mpr ((List.take_sublist _ _).map _).subperm
  have hroom : ∀ pkt ∈ received conf seen (d.w.xsks ifindex), Arrived conf mtu p.room pkt :=
    fun pkt hpkt => h.rx ifindex pkt (List.mem_of_mem_take hpkt)
  have hP := processed_of_processPackets hnf ifindex hroom
    (fun pkt hpkt =>
      h.conserved.addr_lt ha hfit (Multiset.mem_of_le hle (frame_mem_pktFrames hpkt)))
    (Multiset.nodup_of_le hle (h.conserved.nodup _)) (d.umem (p.memory ifindex)) d.state
  rw [hcalls] at hP
  have hsame : ∀ b, SameOff conf (pktFrames conf (received conf seen (d.w.xsks ifindex))) (d.umem b)
      (Function.update d.umem (p.memory ifindex) m b) := sameOff_update hP.same
  have hframes := h.conserved.frames
  rw [hidle] at hframes
  have hcons : Conserved (receiveBatch seen (processorOf calls) d.w.xsks ifindex) :=
    conserved_receiveBatch ha ((add_zero _).symm.trans hframes) h.conserved.owned
      (processorOf calls)
  have hsorted : Sorted conf p (Function.update d.umem (p.memory ifindex) m) seen ifindex
      calls d.w.xsks (receiveBatch seen (processorOf calls) d.w.xsks ifindex) :=
    sorted_receiveBatch ha (by rw [Function.update_self]; exact hP.handled)
      (fun pkt hpkt => (hroom pkt hpkt).toInRoom) hcons.running
  refine ⟨hcons, ?_, ?_, hsorted.hand, ?_, ?_, ?_⟩
  · intro j pkt hpkt
    dsimp only at hpkt
    rw [hsorted.rx] at hpkt
    split at hpkt
    · exact h.rx j pkt (List.mem_of_mem_drop hpkt)
    · exact h.rx j pkt hpkt
  · intro j
    dsimp only
    rw [hsorted.tx]
    exact h.tx j
  · rw [List.map_append, callsOf_append, h.ran, hP.ran]
  · intro j
    rw [h.arrived j, List.filter_append, List.map_append, List.append_assoc]
    congr 1
    unfold waiting
    dsimp only
    rw [hsorted.rx]
    by_cases hj : j = ifindex
    · subst hj
      have hall : calls.filter (·.ifindex = j) = calls :=
        List.filter_eq_self.mpr fun c hc => decide_eq_true (hP.ifindex c hc)
      have hsplit : (d.w.xsks j).rx.entries = received conf seen (d.w.xsks j) ++
          ((d.w.xsks j).rx.release ((d.w.xsks j).rx.peek conf.batch_size seen)).entries :=
        Fifo.first_append_release.symm
      rw [if_pos rfl, hall, hP.packets, h.rest_eq hsplit hsame, ← List.map_append, ← hsplit]
    · have hnone : calls.filter (·.ifindex = j) = [] := by
        rw [List.filter_eq_nil_iff]
        intro c hc
        rw [hP.ifindex c hc, decide_eq_true_eq]
        exact fun heq => hj heq.symm
      have hne : (ifindex, Part.rx) ≠ (j, Part.rx) := fun heq => hj (congrArg Prod.fst heq).symm
      rw [if_neg hj, hnone, h.waiting_eq (Multiset.subset_of_le hle) hsame hne]
      rfl
  · intro i
    have hold := h.sent i
    unfold pending at hold ⊢
    rw [hidle] at hold
    dsimp only
    rw [List.filter_append, List.map_append, hold, hsorted.inHand, hsorted.tx,
      h.tx_eq (Multiset.subset_of_le hle) hsame (by simp)]
    simp [inHand]

theorem Faithful.process_batch (ha : Aligned conf e) (hfit : AddressesFit conf)
    (hnf : KeepsRoom mtu p.room p.nf) (h : Faithful p mtu s₀ d) (hidle : d.w.phase = .idle)
    (ifindex : Fin conf.num_interfaces) (seenTx seenRx : Nat) :
    Faithful p mtu s₀ (d.process_batch p ifindex seenTx seenRx) := by
  have hframes := h.conserved.frames
  obtain ⟨xsks, hc, hring, howned⟩ :=
    complete_tx_conserves ha hframes h.conserved.owned seenTx ifindex
  have hcons : Conserved ⟨xsks, d.w.phase⟩ :=
    ⟨h.conserved.running, by rw [hring]; exact hframes, howned⟩
  have h' := h.complete_tx (completed_of_complete_tx hc) hcons
  rcases hcalls : processPackets p.nf p.room ifindex (d.umem (p.memory ifindex)) d.state
    (received conf seenRx (xsks ifindex)) with ⟨calls, m, state⟩
  simp only [Engine.process_batch, hc, hcalls]
  exact h'.batch ha hfit hnf hidle ifindex seenRx hcalls

/-- The memories when row `i` has its places: its packets are in the memory of
their interface, and no other packet is touched. -/
theorem Faithful.copied (h : Faithful p mtu s₀ d) {i : Nat}
    {rows : Fin conf.num_interfaces → List pkt_info} (hphase : d.w.phase = .sending ifindex i rows)
    (hi : i < conf.num_interfaces)
    (humem : umem = if p.memory ifindex ≠ p.memory ⟨i, hi⟩ then
        Function.update d.umem (p.memory ⟨i, hi⟩)
          (copyRow (d.umem (p.memory ifindex)) (d.umem (p.memory ⟨i, hi⟩)) (rows ⟨i, hi⟩))
      else d.umem) :
    (∀ b, SameOff conf (pktFrames conf (rows ⟨i, hi⟩)) (d.umem b) (umem b)) ∧
      (rows ⟨i, hi⟩).map (content (umem (p.memory ⟨i, hi⟩))) =
        (rows ⟨i, hi⟩).map (content (d.umem (p.memory ifindex))) := by
  have hrow : d.w.phase.row ⟨i, hi⟩ = rows ⟨i, hi⟩ := by
    rw [hphase]
    exact if_pos (Nat.le_refl i)
  have hroom := h.hand ⟨i, hi⟩
  have hnodup := h.conserved.nodup (⟨i, hi⟩, .hand)
  simp only [Worker.framesAt] at hnodup
  rw [hrow] at hroom hnodup
  obtain ⟨hsame, hbytes⟩ :=
    copyRow_spec hroom hnodup (d.umem (p.memory ifindex)) (d.umem (p.memory ⟨i, hi⟩))
  by_cases hmem : p.memory ifindex = p.memory ⟨i, hi⟩
  · rw [if_neg (fun hne => hne hmem)] at humem
    subst humem
    rw [hmem]
    exact ⟨fun _ => .refl, rfl⟩
  · rw [if_pos hmem] at humem
    subst humem
    rw [Function.update_self]
    exact ⟨sameOff_update hsame, hbytes⟩

/-- The row goes to the transmit ring of its interface. -/
theorem Faithful.sendRow (h : Faithful p mtu s₀ d) {i : Nat}
    {rows : Fin conf.num_interfaces → List pkt_info} (hphase : d.w.phase = .sending ifindex i rows)
    (hi : i < conf.num_interfaces) {w : Worker conf} (hcons : Conserved w)
    (hnext : w.phase = .sending ifindex (i + 1) rows) (hrx : ∀ j, (w.xsks j).rx = (d.w.xsks j).rx)
    (htx : ∀ j, (w.xsks j).tx.entries =
      if j = ⟨i, hi⟩ then (d.w.xsks j).tx.entries ++ rows j else (d.w.xsks j).tx.entries)
    (hsame : ∀ b, SameOff conf (pktFrames conf (rows ⟨i, hi⟩)) (d.umem b) (umem b))
    (hbytes : (rows ⟨i, hi⟩).map (content (umem (p.memory ⟨i, hi⟩))) =
      (rows ⟨i, hi⟩).map (content (d.umem (p.memory ifindex)))) :
    Faithful p mtu s₀ { d with w := w, umem := umem } := by
  have hrow : d.w.phase.row ⟨i, hi⟩ = rows ⟨i, hi⟩ := by
    rw [hphase]
    exact if_pos (Nat.le_refl i)
  have hF : pktFrames conf (rows ⟨i, hi⟩) ⊆ d.w.framesAt (⟨i, hi⟩, .hand) := by
    simp only [Worker.framesAt, hrow]
    exact Multiset.Subset.refl _
  have hother : ∀ j, j ≠ ⟨i, hi⟩ → w.phase.row j = d.w.phase.row j := by
    intro j hj
    have hne : j.val ≠ i := fun heq => hj (Fin.ext heq)
    rw [hnext, hphase]
    simp only [Phase.row]
    congr 1
    exact propext (by omega)
  have hself : w.phase.row ⟨i, hi⟩ = [] := by
    rw [hnext]
    exact if_neg (Nat.not_succ_le_self i)
  refine ⟨hcons, ?_, ?_, ?_, h.ran, ?_, ?_⟩
  · intro j
    dsimp only
    rw [hrx]
    exact h.rx j
  · intro j pkt hpkt
    dsimp only at hpkt
    rw [htx] at hpkt
    split at hpkt
    · rename_i hj
      subst hj
      rcases List.mem_append.mp hpkt with hpkt | hpkt
      · exact h.tx _ pkt hpkt
      · exact h.hand _ pkt (by rw [hrow]; exact hpkt)
    · exact h.tx j pkt hpkt
  · intro j pkt hpkt
    dsimp only at hpkt
    by_cases hj : j = ⟨i, hi⟩
    · subst hj
      rw [hself] at hpkt
      cases hpkt
    · rw [hother j hj] at hpkt
      exact h.hand j pkt hpkt
  · intro j
    unfold waiting
    dsimp only
    rw [hrx, h.waiting_eq hF hsame (by simp)]
    exact h.arrived j
  · intro k
    rw [h.sent k]
    congr 1
    unfold pending
    dsimp only
    rw [htx]
    by_cases hk : k = ⟨i, hi⟩
    · subst hk
      rw [if_pos rfl, List.map_append, h.tx_eq hF hsame (by simp), hbytes]
      simp only [inHand, hphase, hnext]
      rw [← hphase, ← hnext, hrow, hself, List.map_nil, List.append_nil]
    · have hne : ((⟨i, hi⟩ : Fin conf.num_interfaces), Part.hand) ≠ (k, Part.hand) :=
        fun heq => hk (congrArg Prod.fst heq).symm
      rw [if_neg hk, h.tx_eq hF hsame (by simp), ← h.inHand_eq hF hsame hne]
      simp only [inHand, hphase, hnext]
      rw [← hphase, ← hnext, hother k hk]

/-- A turn of the loop that sends. -/
theorem Faithful.turn (ha : Aligned conf e) (h : Faithful p mtu s₀ d)
    {ifindex : Fin conf.num_interfaces} {i : Nat} {rows : Fin conf.num_interfaces → List pkt_info}
    (hphase : d.w.phase = .sending ifindex i rows) (seen : Nat) :
    Faithful p mtu s₀ (d.turn p seen ifindex i rows) := by
  have hw : d.w = ⟨d.w.xsks, .sending ifindex i rows⟩ := by rw [← hphase]
  have hcons : Conserved (xsknf.sendRow seen d.w.xsks ifindex i rows) := by
    apply conserved_sendRow ha
    rw [← hw]
    exact h.conserved
  unfold Engine.turn
  rcases sendRow_cases seen d.w.xsks ifindex i rows with
    ⟨hend, heq⟩ | ⟨hi, ⟨xsk, ⟨tx, rfl, htx⟩, heq⟩ | ⟨hfull, hwait⟩⟩
  · -- all rows are sent
    rw [dif_neg (by omega)]
    rw [heq] at hcons ⊢
    have hrow : ∀ j, d.w.phase.row j = [] := by
      intro j
      have hj := j.isLt
      rw [hphase]
      exact if_neg (by omega)
    refine ⟨hcons, h.rx, h.tx, ?_, h.ran, h.arrived, ?_⟩
    · intro j pkt hpkt
      cases hpkt
    · intro k
      have hold := h.sent k
      simp only [pending, inHand, hphase] at hold
      rw [← hphase, hrow] at hold
      exact hold
  · -- the row has its places
    have hroom : ((d.w.xsks ⟨i, hi⟩).tx.produce (rows ⟨i, hi⟩)).isSome = true := by
      have hfits := tx.fits
      rw [htx, List.length_append] at hfits
      obtain ⟨q, hq⟩ := Fifo.exists_produce hfits
      rw [hq]
      rfl
    obtain ⟨hsame, hbytes⟩ := h.copied hphase hi rfl
    simp only [hi, dif_pos, hroom, and_true]
    rw [heq] at hcons ⊢
    refine h.sendRow hphase hi hcons rfl ?_ ?_ hsame hbytes
    · intro j
      by_cases hj : j = ⟨i, hi⟩
      · subst hj
        simp
      · simp [hj]
    · intro j
      by_cases hj : j = ⟨i, hi⟩
      · subst hj
        simp [htx]
      · simp [hj]
  · -- the worker waits for a completed frame
    have hnone : ((d.w.xsks ⟨i, hi⟩).tx.produce (rows ⟨i, hi⟩)).isSome = false := by
      rw [Fifo.produce_eq_none_iff.mpr hfull]
      rfl
    simp only [hi, dif_pos, hnone, Bool.false_eq_true, and_false, if_false]
    rcases hwait with ⟨xsks, hc, heq⟩ | ⟨-, heq⟩
    · rw [heq] at hcons ⊢
      rw [← hphase] at hcons ⊢
      exact h.complete_tx (completed_of_complete_tx hc) hcons
    · rw [heq] at hcons
      exact absurd rfl hcons.running

end

/-! ## Whole runs -/

/-- The packets that come in have at most `mtu` bytes, and the kernel leaves the
room behind the start that it gives them. -/
def FitsRoom (conf : xsknf_config) (mtu room : Nat) : Packets conf → Prop
  | .receive _ offset pkt =>
    offset % conf.xsk_frame_size + room ≤ conf.xsk_frame_size ∧ pkt.length ≤ mtu
  | _ => True

theorem Faithful.step {p : Setup conf σ} {mtu : Nat} {s₀ : σ} {d : Engine conf σ}
    (ha : Aligned conf e) (hfit : AddressesFit conf) (hmtu : mtu ≤ p.room)
    (hnf : KeepsRoom mtu p.room p.nf) (h : Faithful p mtu s₀ d) (event : Packets conf)
    (hevent : FitsRoom conf mtu p.room event) :
    Faithful p mtu s₀ (d.step p event) := by
  cases event with
  | process_batch ifindex seenTx seenRx =>
    simp only [Engine.step]
    split
    · rename_i hidle
      exact h.process_batch ha hfit hnf hidle ifindex seenTx seenRx
    · exact h
  | turn seen =>
    simp only [Engine.step]
    split
    · rename_i hphase
      exact h.turn ha hphase seen
    · exact h
  | receive i offset pkt => exact h.receive ha i hevent.1 hmtu hevent.2
  | transmit i => exact h.transmit ha i

theorem faithful_start (ha : Aligned conf e) (hfit : AddressesFit conf) (p : Setup conf σ)
    (mtu : Nat) (umem : Buffer → Mem) (s₀ : σ) :
    Faithful p mtu s₀ (Engine.start conf umem s₀) where
  conserved := conserved_start ha hfit
  rx _ _ hpkt := nomatch hpkt
  tx _ _ hpkt := nomatch hpkt
  hand _ _ hpkt := nomatch hpkt
  ran := rfl
  arrived _ := rfl
  sent _ := rfl

/-- In every run, the network function is called for one packet after the other:
for the packets of each interface in the order in which they came in, each once.
What each call left goes out on its interface, in the order of the calls, once
and with the bytes that the call left. The packets that are not yet processed,
or not yet sent, are in the rings and in the hands of the worker. -/
theorem packets_go_through_in_order (p : Setup conf σ) (hsize : conf.xsk_frame_size = 2 ^ e)
    (hint : e < 31) (hbatch : conf.batch_size ≤ 255) (hfit : AddressesFit conf) {mtu : Nat}
    (hmtu : mtu ≤ p.room) (hnf : KeepsRoom mtu p.room p.nf) (umem : Buffer → Mem) (s₀ : σ)
    (events : List (Packets conf)) (hevents : ∀ event ∈ events, FitsRoom conf mtu p.room event) :
    let d := run (Engine.step p) (Engine.start conf umem s₀) events
    callsOf p.nf s₀ (d.calls.map Call.input) = (d.calls, d.state) ∧
      (∀ j, d.arrived j = (d.calls.filter (·.ifindex = j)).map Call.packet ++ waiting p d j) ∧
      ∀ i, (d.calls.filter (·.verdict = some i)).map Call.result = d.sent i ++ pending p d i := by
  have ha : Aligned conf e := ⟨hsize, hint, hbatch⟩
  have hrun := run_invariant_of (Faithful p mtu s₀) hevents
    (fun _ event hevent h => h.step ha hfit hmtu hnf event hevent)
    (faithful_start ha hfit p mtu umem s₀)
  exact ⟨hrun.ran, hrun.arrived, hrun.sent⟩

/-- The agent on the switch as the network function of a worker. Its frame is what
lies between the start of the packet and the end of the room; behind that it reads
zeros, and its writes there are lost. -/
def agentFunction (o : Options) (worker_id : Nat) : NetworkFunction conf Agent :=
  fun a ifindex got len =>
    let (out, a, p) := xsknf_packet_processor o a ⟨fun i => got.getD i 0, len⟩ ifindex worker_id
    ⟨if h : 0 ≤ out ∧ out.toNat < conf.num_interfaces then some ⟨out.toNat, h.2⟩ else none,
      read p.mem 0 got.length, p.len, a⟩

/-- The agent needs room for the options that it writes. -/
theorem keepsRoom_agentFunction (o : Options) (worker_id : Nat) {mtu room : Nat}
    (hroom : mtu + 40 ≤ room) (hint : room < 2 ^ 32) :
    KeepsRoom mtu room (agentFunction o worker_id : NetworkFunction conf Agent) where
  buffer _ _ _ _ hgot _ := (length_read _ _ _).trans hgot
  len a ifindex got len _ hlen := by
    have hlonger :=
      switch_agent.xsknf_packet_processor_len_le o a (p := ⟨fun i => got.getD i 0, len⟩)
      ifindex worker_id (by dsimp only; omega)
    exact hlonger.trans (by dsimp only; omega)

def plainOptions : Options := { hash_option := .HASH_OFF, tcpcsum_option := .CSUM_OFF }

/-- The interfaces of the client, the server and the attacker. The first one
copies. -/
def agentSetup : Setup ⟨3, 64, 4096⟩ Agent :=
  ⟨agentFunction plainOptions 0, 2048, 0, fun i => if i = 0 then args.XDP_COPY else 0⟩

/-- The bytes of a segment from the client. -/
def clientBytes (flags : U8) : Packet :=
  read (Pkt.segment client_ip server_ip 7 80 1 0 flags 5 0).mem 0 66

/-- A SYN and a segment without flags come in from the client. The agent answers
the first one and sends the second one to the server. -/
def clientPackets : List (Packets ⟨3, 64, 4096⟩) :=
  [.receive 0 256 (clientBytes 2), .receive 0 256 (clientBytes 0), .process_batch 0 0 2,
    .turn 0, .turn 0, .transmit 0, .transmit 1]

/-- The answer has 4 bytes more than the SYN. -/
theorem the_packets_of_the_client_go_through :
    ∃ d, run (Engine.step agentSetup) (Engine.start _ (fun _ _ => 0) (.boot fun _ _ => 0))
        clientPackets = d ∧
      callsOf agentSetup.nf (.boot fun _ _ => 0) (d.calls.map Call.input) = (d.calls, d.state) ∧
      (∀ j, d.arrived j = (d.calls.filter (·.ifindex = j)).map Call.packet ++
        waiting agentSetup d j) ∧
      (∀ i, (d.calls.filter (·.verdict = some i)).map Call.result =
        d.sent i ++ pending agentSetup d i) ∧
      (d.sent 0).map List.length = [70] ∧ (d.sent 1).map List.length = [66] := by
  have hnf : KeepsRoom 1500 2048 agentSetup.nf :=
    keepsRoom_agentFunction plainOptions 0 (show 1500 + 40 ≤ 2048 by decide) (by decide)
  have hfits : ∀ event ∈ clientPackets, FitsRoom ⟨3, 64, 4096⟩ 1500 2048 event := by
    intro event hevent
    simp only [clientPackets, List.mem_cons, List.not_mem_nil, or_false] at hevent
    rcases hevent with rfl | rfl | rfl | rfl | rfl | rfl | rfl
    all_goals trivial
  have hlaw := packets_go_through_in_order (e := 12) agentSetup rfl (by decide) (by decide)
    (by decide) (by decide) hnf (fun _ _ => 0) (.boot fun _ _ => 0) clientPackets hfits
  have hlengths :
      ((run (Engine.step agentSetup) (Engine.start _ (fun _ _ => 0) (.boot fun _ _ => 0))
      clientPackets).sent 0).map List.length = [70] ∧
      ((run (Engine.step agentSetup) (Engine.start _ (fun _ _ => 0) (.boot fun _ _ => 0))
        clientPackets).sent 1).map List.length = [66] := by
    decide +kernel
  generalize run (Engine.step agentSetup) (Engine.start _ (fun _ _ => 0) (.boot fun _ _ => 0))
    clientPackets = d at hlaw hlengths
  obtain ⟨hcalls, harrived, hsent⟩ := hlaw
  exact ⟨d, rfl, hcalls, harrived, hsent, hlengths⟩

end edge_cookie.xsknf
