/-
  The telnet layer of a serial line (`qemu-char.c`).

  The bytes that a client sends over a socket are read in pieces, of a size that the socket and
  the device allow.  `tcp_chr_process_IAC_bytes` takes the commands of telnet out of each piece, in
  place; what is left of a piece is for the device.  A command begins with `IAC` and has three
  bytes, but for `IAC IAC`, which stands for the byte `IAC`, and the break, which have two; the
  pieces may end anywhere in it.

  `telnet_delivers`: the device gets the data that the client sends, however it is cut, and never
  more at a time than it has room for, unless the line is hung up with bytes unread.
-/
import Bluepill.Lib.Compact
import Bluepill.Lib.Run

namespace Bluepill

open Compact Machine

def IAC : BitVec 8 := 255
def IAC_BREAK : BitVec 8 := 243
def READ_BUF_LEN : ℕ := 4096

/-- `do_telnetopt`, and how many breaks there were. -/
structure Telnet where
  opt : ℕ
  breaks : ℕ

namespace Telnet

/-- A round of the loop of `tcp_chr_process_IAC_bytes`: whether the byte is kept. -/
def step (s : Telnet) (b : BitVec 8) : Telnet × Bool :=
  if s.opt > 1 then
    if b = IAC ∧ s.opt = 2 then ({ s with opt := 1 }, true)
    else
      -- a break has no third byte: it is counted twice
      let s := if b = IAC_BREAK ∧ s.opt = 2 then { s with breaks := s.breaks + 1, opt := s.opt + 1 } else s
      let s := { s with opt := s.opt + 1 }
      (if s.opt ≥ 4 then { s with opt := 1 } else s, false)
  else if b = IAC then ({ s with opt := 2 }, false)
  else (s, true)

/-- `tcp_chr_process_IAC_bytes`: the state, the buffer and its size afterwards. -/
def processIac (s : Telnet) (buf : List (BitVec 8)) : Telnet × List (BitVec 8) × ℕ :=
  Compact.loop step buf.length 0 s buf 0

end Telnet

/-- `TCPCharDriver`; what the client has sent and has not been read, and whether the client has closed its side; and
    the pieces that the device got, each with the room that it had when it was asked. -/
structure TcpChr where
  connected : Bool
  maxSize : ℕ
  telnet : Telnet
  socket : List (BitVec 8)
  closed : Bool
  written : List (ℕ × List (BitVec 8))

/-- The client sends bytes or closes the connection, the device is asked for its room, the socket is read (`recv` gives
    at most `n` bytes, and fails if `n` is `0`) or found to be hung up, and a client is let in. -/
inductive TcpOp where
  | arrive (bytes : List (BitVec 8))
  | close
  | poll (room : ℕ)
  | read (n : ℕ)
  | hangUp
  | accept

/-- An event that needs a client, or the lack of one. -/
inductive TcpFault where
  | noClient
  | busy

namespace TcpChr

def start : TcpChr := ⟨false, 0, ⟨1, 0⟩, [], false, []⟩

/-- `tcp_chr_disconnect`: the telnet state stays, and what has not been read is lost. -/
def disconnect (s : TcpChr) : TcpChr := { s with connected := false, socket := [], closed := false }

/-- `tcp_chr_recv`. -/
def recv (s : TcpChr) (n len : ℕ) : Option (List (BitVec 8)) :=
  if n = 0 then none
  else if s.socket = [] then if s.closed then some [] else none
  else some (s.socket.take (min n len))

/-- `qemu_chr_be_write`. -/
def beWrite (s : TcpChr) (buf : List (BitVec 8)) : TcpChr := { s with written := s.written ++ [(s.maxSize, buf)] }

/-- What `tcp_chr_read` does with the bytes that it got. -/
def receive (s : TcpChr) (bytes : List (BitVec 8)) : TcpChr :=
  if s.telnet.opt ≠ 0 then
    let (telnet, buf, size) := s.telnet.processIac bytes
    if size > 0 then { s with telnet }.beWrite (buf.take size) else { s with telnet }
  else s.beWrite bytes

/-- `tcp_chr_read`, without a hang-up. -/
def read (s : TcpChr) (n : ℕ) : TcpChr :=
  if s.connected = false ∨ s.maxSize = 0 then s
  else
    match s.recv n (min READ_BUF_LEN s.maxSize) with
    | none => s
    | some bytes =>
      if bytes = [] then s.disconnect else { s with socket := s.socket.drop bytes.length }.receive bytes

/-- `tcp_chr_read_poll` is `poll`, `tcp_chr_accept` is `accept`. -/
def step (s : TcpChr) : TcpOp → Except TcpFault TcpChr
  | .arrive bytes => if s.connected ∧ ¬ s.closed then .ok { s with socket := s.socket ++ bytes } else .error .noClient
  | .close => if s.connected then .ok { s with closed := true } else .error .noClient
  | .poll room => .ok (if s.connected then { s with maxSize := room } else s)
  | .read n => .ok (s.read n)
  | .hangUp => if s.connected then .ok s.disconnect else .error .noClient
  | .accept => if s.connected then .error .busy else .ok { s with connected := true }

/-- The data that the device got. -/
def data (s : TcpChr) : List (BitVec 8) := (s.written.map Prod.snd).flatten

end TcpChr

/-- What the clients have sent. -/
def TcpOp.bytes : TcpOp → List (BitVec 8)
  | .arrive bytes => bytes
  | _ => []

def sentBy (ops : List TcpOp) : List (BitVec 8) := ops.flatMap TcpOp.bytes

/-- What a client sends: a byte of data, a command or a break. -/
inductive TelnetItem where
  | data (b : BitVec 8)
  | command (c option : BitVec 8) (h : c ≠ IAC ∧ c ≠ IAC_BREAK)
  | break

namespace TelnetItem

def encode : TelnetItem → List (BitVec 8)
  | data b => if b = IAC then [IAC, IAC] else [b]
  | command c option _ => [IAC, c, option]
  | .break => [IAC, IAC_BREAK]

/-- The data of an item. -/
def payload : TelnetItem → List (BitVec 8)
  | data b => [b]
  | _ => []

def isBreak : TelnetItem → Bool
  | .break => true
  | _ => false

end TelnetItem

namespace Telnet

/-- **An item is read as what it stands for.** -/
theorem keep_encode (item : TelnetItem) (k : ℕ) :
    keep step ⟨1, k⟩ item.encode = (⟨1, k + item.isBreak.toNat⟩, item.payload) := by
  cases item with
  | data b =>
    rw [TelnetItem.encode]
    split
    case isTrue hb =>
      rw [hb]
      rfl
    case isFalse hb => simp [keep, step, hb, TelnetItem.isBreak, TelnetItem.payload]
  | command c option h =>
    rw [TelnetItem.encode]
    simp [keep, step, h.1, h.2, TelnetItem.isBreak, TelnetItem.payload]
  | «break» => rfl

theorem keep_items (items : List TelnetItem) (k : ℕ) : keep step ⟨1, k⟩ (items.flatMap TelnetItem.encode) =
    (⟨1, k + items.countP TelnetItem.isBreak⟩, items.flatMap TelnetItem.payload) := by
  induction items generalizing k with
  | nil => rfl
  | cons item items ih =>
    rw [List.flatMap_cons, keep_append, keep_encode, ih, Nat.add_assoc, List.countP_cons, Nat.add_comm item.isBreak.toNat]
    cases item.isBreak <;> rfl

theorem opt_step {s : Telnet} {b : BitVec 8} (h : s.opt ≠ 0) : (s.step b).1.opt ≠ 0 := by
  rw [step]
  grind

theorem opt_keep {bytes : List (BitVec 8)} {s : Telnet} (h : s.opt ≠ 0) : (keep step s bytes).1.opt ≠ 0 := by
  induction bytes generalizing s with
  | nil => exact h
  | cons b bytes ih => exact ih (opt_step h)

/-- **`tcp_chr_process_IAC_bytes` leaves the data of the buffer at its front.** -/
theorem processIac_keep (s : Telnet) (bytes : List (BitVec 8)) : ∃ buf size,
    s.processIac bytes = ((keep step s bytes).1, buf, size) ∧ buf.take size = (keep step s bytes).2 ∧
      size ≤ bytes.length ∧ buf.length = bytes.length := by
  have h := loop_keep step (s := s) (Nat.zero_add bytes.length).symm (Nat.le_refl 0)
  rw [List.drop_zero, List.take_zero, List.nil_append, Nat.zero_add] at h
  exact h

end Telnet

namespace TcpChr

/-- Each piece has data, and there was room for it. -/
def Fits (s : TcpChr) : Prop := ∀ p ∈ s.written, 0 < p.2.length ∧ p.2.length ≤ p.1

/-- The bytes read so far are `got`. -/
structure Got (got : List (BitVec 8)) (s : TcpChr) : Prop where
  keep : keep Telnet.step ⟨1, 0⟩ got = (s.telnet, s.data)
  fits : s.Fits
  opt : s.telnet.opt ≠ 0

variable {s t : TcpChr} {got : List (BitVec 8)}

theorem data_beWrite (s : TcpChr) (buf : List (BitVec 8)) : (s.beWrite buf).data = s.data ++ buf := by
  simp [data, beWrite]

theorem Fits.beWrite {buf : List (BitVec 8)} (h : s.Fits) (hpos : 0 < buf.length) (hle : buf.length ≤ s.maxSize) :
    (s.beWrite buf).Fits := by
  intro p hp
  rcases List.mem_append.1 hp with hp | hp
  · exact h p hp
  · cases List.mem_singleton.1 hp
    exact ⟨hpos, hle⟩

/-- **A piece that is read is added to the bytes read.** -/
theorem Got.receive {bytes : List (BitVec 8)} (h : Got got s) (hle : bytes.length ≤ s.maxSize) :
    Got (got ++ bytes) (s.receive bytes) := by
  obtain ⟨buf, size, hiac, htake, hsize, hlen⟩ := Telnet.processIac_keep s.telnet bytes
  have hkeep : Compact.keep Telnet.step ⟨1, 0⟩ (got ++ bytes) =
      ((Compact.keep Telnet.step s.telnet bytes).1, s.data ++ (Compact.keep Telnet.step s.telnet bytes).2) := by
    rw [keep_append, h.keep]
  rw [TcpChr.receive, if_pos h.opt, hiac]
  dsimp only
  split
  case isTrue hpos =>
    refine ⟨?_, Fits.beWrite h.fits ?_ ?_, Telnet.opt_keep h.opt⟩
    · rw [hkeep, data_beWrite, htake]
      rfl
    · rw [List.length_take]
      omega
    · rw [List.length_take]
      exact Nat.le_trans (Nat.min_le_left _ _) (Nat.le_trans hsize hle)
  case isFalse hpos =>
    refine ⟨?_, h.fits, Telnet.opt_keep h.opt⟩
    rw [hkeep, ← htake, Nat.eq_zero_of_not_pos hpos, List.take_zero, List.append_nil]
    rfl

theorem receive_frame (s : TcpChr) (bytes : List (BitVec 8)) : (s.receive bytes).connected = s.connected ∧
    (s.receive bytes).closed = s.closed ∧ (s.receive bytes).socket = s.socket := by
  rw [TcpChr.receive]
  split
  · dsimp only
    split <;> exact ⟨rfl, rfl, rfl⟩
  · exact ⟨rfl, rfl, rfl⟩

theorem recv_eq_some {n len : ℕ} {bytes : List (BitVec 8)} (h : s.recv n len = some bytes) :
    bytes = s.socket.take bytes.length ∧ bytes.length ≤ len ∧ (bytes = [] → 0 < len → s.socket = []) := by
  rw [recv] at h
  split at h
  case isTrue => cases h
  case isFalse hn =>
    split at h
    case isTrue hempty =>
      split at h
      · cases h
        exact ⟨rfl, Nat.zero_le _, fun _ _ => hempty⟩
      · cases h
    case isFalse hsome =>
      cases h
      refine ⟨?_, ?_, ?_⟩
      · rw [List.length_take, ← List.take_eq_take_min]
      · rw [List.length_take]
        omega
      · intro hnil hlen
        rcases List.take_eq_nil_iff.1 hnil with h0 | hnil
        · omega
        · exact hnil

/-- The bytes that were sent are those that were read and those that wait in the socket. -/
def Sent (ops : List TcpOp) (s : TcpChr) : Prop :=
  (s.connected = false → s.socket = []) ∧ ∃ got, Got got s ∧ got ++ s.socket = sentBy ops

theorem Got.read (h : Got got s) (n : ℕ) (hclosed : s.connected = false → s.socket = []) :
    ((s.read n).connected = false → (s.read n).socket = []) ∧
      ∃ got', Got got' (s.read n) ∧ got' ++ (s.read n).socket = got ++ s.socket := by
  rw [TcpChr.read]
  split
  case isTrue => exact ⟨hclosed, got, h, rfl⟩
  case isFalse hready =>
    rw [not_or] at hready
    cases hrecv : s.recv n (min READ_BUF_LEN s.maxSize) with
    | none => exact ⟨hclosed, got, h, rfl⟩
    | some bytes =>
      obtain ⟨hbytes, hlen, hnil⟩ := recv_eq_some hrecv
      dsimp only
      split
      case isTrue hempty =>
        -- `recv` gives no byte only at the end of a connection whose bytes were all read
        have hsocket : s.socket = [] :=
          hnil hempty (Nat.lt_min.2 ⟨by decide, Nat.pos_of_ne_zero hready.2⟩)
        refine ⟨fun _ => rfl, got, ⟨h.keep, h.fits, h.opt⟩, ?_⟩
        rw [hsocket]
        rfl
      case isFalse =>
        have hgot : Got got { s with socket := s.socket.drop bytes.length } := ⟨h.keep, h.fits, h.opt⟩
        have hframe := receive_frame { s with socket := s.socket.drop bytes.length } bytes
        refine ⟨fun hoff => ?_, _, hgot.receive (Nat.le_trans hlen (Nat.min_le_right _ _)), ?_⟩
        · rw [hframe.1] at hoff
          exact absurd hoff hready.1
        · rw [hframe.2.2, List.append_assoc]
          nth_rewrite 1 [hbytes]
          rw [List.take_append_drop]

/-- **What was sent is not lost**, unless the socket is hung up before it was read. -/
theorem Sent.step {ops : List TcpOp} {o : TcpOp} (h : Sent ops s) (ho : o = .hangUp → s.socket = [])
    (ht : s.step o = .ok t) : Sent (ops ++ [o]) t := by
  obtain ⟨hclosed, got, hgot, hsent⟩ := h
  have hsentBy : sentBy (ops ++ [o]) = got ++ s.socket ++ o.bytes := by
    rw [hsent, sentBy, List.flatMap_append]
    simp [sentBy]
  rw [Sent, hsentBy]
  cases o with
  | arrive bytes =>
    rw [TcpChr.step] at ht
    split at ht
    case isTrue hopen =>
      cases ht
      refine ⟨fun hoff => ?_, got, ⟨hgot.keep, hgot.fits, hgot.opt⟩, (List.append_assoc _ _ _).symm⟩
      rw [hopen.1] at hoff
      cases hoff
    case isFalse => cases ht
  | close =>
    rw [TcpChr.step] at ht
    split at ht
    · cases ht
      exact ⟨hclosed, got, ⟨hgot.keep, hgot.fits, hgot.opt⟩, (List.append_nil _).symm⟩
    · cases ht
  | poll room =>
    cases ht
    split
    · exact ⟨hclosed, got, ⟨hgot.keep, hgot.fits, hgot.opt⟩, (List.append_nil _).symm⟩
    · exact ⟨hclosed, got, hgot, (List.append_nil _).symm⟩
  | read n =>
    cases ht
    have hread := hgot.read n hclosed
    rwa [← List.append_nil (got ++ s.socket)] at hread
  | hangUp =>
    rw [TcpChr.step] at ht
    split at ht
    · cases ht
      refine ⟨fun _ => rfl, got, ⟨hgot.keep, hgot.fits, hgot.opt⟩, ?_⟩
      rw [ho rfl]
      exact (List.append_nil _).symm
    · cases ht
  | accept =>
    rw [TcpChr.step] at ht
    split at ht
    case isTrue => cases ht
    case isFalse hoff =>
      cases ht
      exact ⟨fun hoff => absurd hoff Bool.noConfusion, got, ⟨hgot.keep, hgot.fits, hgot.opt⟩, (List.append_nil _).symm⟩

/-- The same for the operations that follow, if none of them is a hang-up. -/
theorem Sent.run {ops ops' : List TcpOp} (h : Sent ops s) (hread : TcpOp.hangUp ∉ ops')
    (ht : run TcpChr.step s ops' = .ok t) : Sent (ops ++ ops') t := by
  refine history_inv (P := fun l u => Sent (ops ++ l) u) (C := fun _ o => o ≠ TcpOp.hangUp) ?_ ?_ ?_ ht
  · intro l u o v hu ho hv
    rw [← List.append_assoc]
    exact hu.step (fun heq => absurd heq ho) hv
  · rwa [List.append_nil]
  · rintro u o hu rfl
    exact hread hu.mem

/-! ## Reading all that was sent -/

/-- A read takes as much as there is room for; without a client there is nothing to read. -/
theorem read_socket {n : ℕ} (hoff : s.connected = false → s.socket = []) (hroom : s.connected = true → 0 < s.maxSize)
    (hn : 0 < n) : (s.read n).socket = s.socket.drop (min n (min READ_BUF_LEN s.maxSize)) ∧
      ((s.read n).connected = false → (s.read n).socket = []) := by
  cases hon : s.connected with
  | false =>
    rw [TcpChr.read, if_pos (.inl hon), hoff hon, List.drop_nil]
    exact ⟨rfl, fun _ => rfl⟩
  | true =>
    have hpos := hroom hon
    have hready : ¬ (s.connected = false ∨ s.maxSize = 0) := by
      rw [hon]
      rintro (h | h)
      · cases h
      · omega
    rw [TcpChr.read, if_neg hready, recv, if_neg (Nat.ne_of_gt hn)]
    by_cases hsocket : s.socket = []
    · rw [if_pos hsocket, hsocket, List.drop_nil]
      cases s.closed with
      | false => exact ⟨hsocket, fun _ => hsocket⟩
      | true => exact ⟨rfl, fun _ => rfl⟩
    · have htake : s.socket.take (min n (min READ_BUF_LEN s.maxSize)) ≠ [] := by
        have hlen : 0 < min n (min READ_BUF_LEN s.maxSize) := Nat.lt_min.2 ⟨hn, Nat.lt_min.2 ⟨by decide, hpos⟩⟩
        rw [Ne, List.take_eq_nil_iff]
        rintro (h | h)
        · omega
        · exact hsocket h
      rw [if_neg hsocket]
      dsimp only
      rw [if_neg htake]
      obtain ⟨hconn, -, hrest⟩ := receive_frame
        { s with socket := s.socket.drop (s.socket.take (min n (min READ_BUF_LEN s.maxSize))).length }
        (s.socket.take (min n (min READ_BUF_LEN s.maxSize)))
      refine ⟨hrest.trans ?_, fun hoff' => ?_⟩
      · rw [List.drop_eq_drop_iff, List.length_take, Nat.min_assoc, Nat.min_self]
      · rw [hconn] at hoff'
        exact absurd (hoff'.symm.trans hon) (by decide)

/-- Rounds of the main loop in which the device has room for `p.1` bytes and `recv` gives at most `p.2`. -/
def rounds (l : List (ℕ × ℕ)) : List TcpOp := l.flatMap fun p => [.poll p.1, .read p.2]

/-- **Every round reads something, until all is read.** -/
theorem drained {l : List (ℕ × ℕ)} (hl : ∀ p ∈ l, 0 < p.1 ∧ 0 < p.2) (hoff : s.connected = false → s.socket = [])
    (hlen : s.socket.length ≤ l.length) : ∃ t, Machine.run TcpChr.step s (rounds l) = .ok t ∧ t.socket = [] := by
  -- each round takes at least one of the bytes that wait
  induction l generalizing s with
  | nil => exact ⟨s, rfl, List.eq_nil_of_length_eq_zero (Nat.le_zero.1 hlen)⟩
  | cons p l ih =>
    obtain ⟨hroom, hn⟩ := hl p List.mem_cons_self
    obtain ⟨u, hu⟩ : ∃ u, u = if s.connected then { s with maxSize := p.1 } else s := ⟨_, rfl⟩
    have hpoll : u.socket = s.socket ∧ u.connected = s.connected ∧ (u.connected = true → u.maxSize = p.1) := by
      rw [hu]
      split
      · exact ⟨rfl, rfl, fun _ => rfl⟩
      · exact ⟨rfl, rfl, fun hon => absurd hon ‹_›⟩
    have hoff' : u.connected = false → u.socket = [] := by
      rw [hpoll.1, hpoll.2.1]
      exact hoff
    obtain ⟨hsocket, hoff''⟩ := read_socket hoff' (fun hon => (hpoll.2.2 hon).symm ▸ hroom) hn
    have hlen' : (u.read p.2).socket.length ≤ l.length := by
      rw [hsocket, List.length_drop, hpoll.1]
      rw [List.length_cons] at hlen
      cases hon : u.connected with
      | false =>
        rw [← hpoll.1, hoff' hon, List.length_nil, Nat.zero_sub]
        exact Nat.zero_le _
      | true =>
        have hpos : 0 < min p.2 (min READ_BUF_LEN u.maxSize) := by
          rw [hpoll.2.2 hon]
          exact Nat.lt_min.2 ⟨hn, Nat.lt_min.2 ⟨by decide, hroom⟩⟩
        omega
    obtain ⟨t, ht, hempty⟩ := ih (fun q hq => hl q (List.mem_cons_of_mem p hq)) hoff'' hlen'
    exact ⟨t, run_cons_ok.2 ⟨u, congrArg Except.ok hu.symm, run_cons_ok.2 ⟨_, rfl, ht⟩⟩, hempty⟩

theorem sentBy_rounds (l : List (ℕ × ℕ)) : sentBy (rounds l) = [] := by
  induction l with
  | nil => rfl
  | cons p l ih => exact ih

theorem hangUp_notMem_rounds (l : List (ℕ × ℕ)) : TcpOp.hangUp ∉ rounds l := by
  simp [rounds]

/-- The device has got the data of a part of what the clients send; of all of it, when nothing is left. -/
theorem Sent.data {ops : List TcpOp} {items : List TelnetItem} {rest : List (BitVec 8)} (h : Sent ops s)
    (hsent : sentBy ops ++ rest = items.flatMap TelnetItem.encode) :
    s.data <+: items.flatMap TelnetItem.payload ∧ (s.socket = [] → rest = [] →
      s.data = items.flatMap TelnetItem.payload ∧ s.telnet = ⟨1, items.countP TelnetItem.isBreak⟩) := by
  obtain ⟨-, got, hgot, hops⟩ := h
  -- the automaton on the whole stream is the one on what was read, and then on the rest
  have hall := Telnet.keep_items items 0
  rw [← hsent, ← hops, List.append_assoc, keep_append, hgot.keep, Nat.zero_add, Prod.mk.injEq] at hall
  refine ⟨⟨_, hall.2⟩, fun hsocket hrest => ?_⟩
  rw [hsocket, hrest] at hall
  exact ⟨(List.append_nil _).symm.trans hall.2, hall.1⟩

end TcpChr

open TcpChr

/-- **The device gets the data that the clients send.**  The clients send `items`, of which `rest` is still to come.
    However the stream is cut into pieces, and into connections that are hung up only when all was read, what the
    device has got is a part of the data from its start, in pieces for which it had room; and if nothing is to come
    and the device makes room again and again, it gets all.  An item may begin in one connection and end in the next
    one: the state is not reset. -/
theorem telnet_delivers {ops : List TcpOp} {items : List TelnetItem} {rest : List (BitVec 8)} {s : TcpChr}
    (hsent : sentBy ops ++ rest = items.flatMap TelnetItem.encode)
    (hread : ∀ t, Takes TcpChr.step start ops t .hangUp → t.socket = []) (hs : run TcpChr.step start ops = .ok s) :
    s.data <+: items.flatMap TelnetItem.payload ∧ (∀ p ∈ s.written, 0 < p.2.length ∧ p.2.length ≤ p.1) ∧
      (rest = [] → ∀ l : List (ℕ × ℕ), (∀ p ∈ l, 0 < p.1 ∧ 0 < p.2) → s.socket.length ≤ l.length →
        ∃ t, run TcpChr.step s (rounds l) = .ok t ∧ t.data = items.flatMap TelnetItem.payload ∧
          t.telnet = ⟨1, items.countP TelnetItem.isBreak⟩) := by
  have hinv : Sent ops s := by
    refine history_inv (P := Sent) (C := fun t o => o = TcpOp.hangUp → t.socket = []) (fun _ _ _ _ => Sent.step) ?_ ?_ hs
    · exact ⟨fun _ => rfl, [], ⟨rfl, fun _ h => (List.not_mem_nil h).elim, by decide⟩, rfl⟩
    · rintro t o ht rfl
      exact hread t ht
  refine ⟨(hinv.data hsent).1, ?_, fun hrest l hl hlen => ?_⟩
  · obtain ⟨-, got, hgot, -⟩ := hinv
    exact hgot.fits
  · obtain ⟨t, ht, hempty⟩ := drained hl hinv.1 hlen
    have hall : sentBy (ops ++ rounds l) ++ rest = items.flatMap TelnetItem.encode := by
      rw [sentBy, List.flatMap_append]
      exact (congrArg (sentBy ops ++ · ++ rest) (sentBy_rounds l)).trans (by rwa [List.append_nil])
    exact ⟨t, ht, ((hinv.run (hangUp_notMem_rounds l) ht).data hall).2 hempty hrest⟩

/-- A client that negotiates an option, sends `h`, the byte `IAC` and a break, and leaves; and one that sends `i`. -/
def twoClients : List TelnetItem := [.command 251 31 (by decide), .data 104, .data 255, .break, .data 105]

/-- The command and the doubled `IAC` are cut, and `i` has not been read when the second client closes. -/
def cutStream : List TcpOp :=
  [.accept, .arrive [255, 251, 31, 104, 255], .poll 2, .read 5, .poll 4096, .read 9, .arrive [255, 255, 243], .close,
    .read 9, .read 9, .accept, .arrive [105], .close]

theorem telnet_delivers_cutStream : ∃ s t, run TcpChr.step start cutStream = .ok s ∧
    run TcpChr.step s [.poll 1, .read 1] = .ok t ∧ t.data = [104, 255, 105] ∧ t.telnet.breaks = 1 := by
  have hsent : sentBy cutStream ++ [] = twoClients.flatMap TelnetItem.encode := rfl
  have hread : ∀ t, Takes TcpChr.step start cutStream t .hangUp → t.socket = [] := by
    intro t ht
    have hmem := ht.mem
    simp [cutStream] at hmem
  have hrun : ∃ s, run TcpChr.step start cutStream = .ok s ∧ s.socket.length ≤ 1 := by
    rw [← post_ok]
    decide +kernel
  obtain ⟨s, hs, hlen⟩ := hrun
  obtain ⟨t, ht, hdata, htelnet⟩ := (telnet_delivers hsent hread hs).2.2 rfl [(1, 1)] (by decide) hlen
  exact ⟨s, t, hs, ht, hdata, congrArg Telnet.breaks htelnet⟩

end Bluepill
