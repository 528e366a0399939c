/-
# The listing of the TCP sockets

`dump_tcp4` prints a line for each IPv4 socket: its addresses and ports and some
ten further columns, several of them as wide as an address; only a full socket's
line ends with "totrt" and its counts. `jiffies_to_clock_t` takes a product of
64 bits that can wrap, but no result for a 32-bit time has more than 13 digits,
so that every line fits into the reader's buffer of 256 characters.

The number that `%pK` prints is the kernel's hash of the address, a field here.

Key definitions: `TcpSock`, `SockCommon`, `dumpTcp4`, `Tidy`.
Key theorems: `jiffiesToClockT_lt`, `tidy_columns`.
-/
import TuningMod.Lib.Search
import TuningMod.Numerals

namespace TuningMod

open Search

/-! ### The sockets -/

/-- What is read from a `tcp_sock`. The timer is pending when its entry is in a list. -/
structure TcpSock where
  inetRcvSaddr : UInt32
  inetDaddr : UInt32
  inetSport : UInt16
  inetDport : UInt16
  skState : UInt8
  skTimerPending : Bool
  skTimerExpires : UInt64
  skAckBacklog : UInt32
  skRefcnt : Int32
  skSocketIno : Option UInt64
  icskPending : UInt8
  icskTimeout : UInt64
  icskRetransmits : UInt8
  icskProbesOut : UInt8
  icskRto : UInt32
  icskAckAto : UInt32
  icskAckQuick : UInt8
  icskAckPingpong : UInt8
  maxQlen : Int32
  rcvNxt : UInt32
  copiedSeq : UInt32
  writeSeq : UInt32
  sndUna : UInt32
  sndCwnd : UInt32
  sndSsthresh : UInt32
  totalRetrans : UInt32
  segsOut : UInt32
  pointer : UInt64

/-- What is read from a `tcp_timewait_sock`. -/
structure TcpTimewaitSock where
  twRcvSaddr : UInt32
  twDaddr : UInt32
  twSport : UInt16
  twDport : UInt16
  twSubstate : UInt8
  twTimerExpires : UInt64
  twRefcnt : Int32
  pointer : UInt64

/-- What is read from a `tcp_request_sock`. -/
structure TcpRequestSock where
  irLocAddr : UInt32
  irRmtAddr : UInt32
  irNum : UInt16
  irRmtPort : UInt16
  rskTimerExpires : UInt64
  numTimeout : UInt8
  pointer : UInt64

/-- What the three casts make of a socket. -/
inductive SockKind where
  | tcp (tp : TcpSock)
  | timewait (ttw : TcpTimewaitSock)
  | request (treq : TcpRequestSock)
  | none

/-- One call of the iterator: its number, the socket and its user, and the two
readings of the clock. -/
structure SockCommon where
  seqNum : UInt32
  uid : UInt32
  skcFamily : UInt16
  kind : SockKind
  jiffies : UInt64
  jiffiesLater : UInt64

/-! ### What is printed -/

def bpfNtohs (x : UInt16) : UInt16 := x <<< 8 ||| x >>> 8

def jiffiesToClockT (configHz : UInt32) (x : UInt64) : UInt64 :=
  let tickNsec := (1000000000 + (configHz / 2).toUInt64) / configHz.toUInt64
  let userHzNsec := 1000000000 / 100
  if tickNsec % userHzNsec = 0 then
    if configHz < 100 then x * (100 / configHz).toUInt64 else x / (configHz / 100).toUInt64
  else x * tickNsec / userHzNsec

def jiffiesDeltaToClockT (configHz : UInt32) (delta : Int64) : UInt64 :=
  if delta ≤ 0 then 0 else jiffiesToClockT configHz delta.toUInt64

/-- `timer_active` and `timer_expires`. -/
def TcpSock.timer (tp : TcpSock) (jiffies : UInt64) : UInt8 × UInt64 :=
  if tp.icskPending = 1 ∨ tp.icskPending = 6 ∨ tp.icskPending = 5 then (1, tp.icskTimeout)
  else if tp.icskPending = 3 then (4, tp.icskTimeout)
  else if tp.skTimerPending then (2, tp.skTimerExpires)
  else (0, jiffies)

/-- `TCP_LISTEN`. -/
def TcpSock.Listening (tp : TcpSock) : Prop := tp.skState = 10

instance (tp : TcpSock) : Decidable tp.Listening := inferInstanceAs (Decidable (_ = _))

def TcpSock.rxQueue (tp : TcpSock) : UInt32 :=
  if tp.Listening then tp.skAckBacklog
  else if (tp.rcvNxt - tp.copiedSeq).toInt32 < 0 then 0 else tp.rcvNxt - tp.copiedSeq

/-- `(quick << 1) | pingpong`. -/
def TcpSock.quickPingpong (tp : TcpSock) : UInt32 :=
  tp.icskAckQuick.toUInt32 <<< 1 ||| if 3 ≤ tp.icskAckPingpong then 1 else 0

/-- The length of the queue of a listener, and else the threshold unless it is infinite. -/
def TcpSock.qlenOrSsthresh (tp : TcpSock) : Int32 :=
  if tp.Listening then tp.maxQlen else if 0x7fffffff ≤ tp.sndSsthresh then -1 else tp.sndSsthresh.toInt32

/-- `"%4d: %08X:%04X %08X:%04X "`. -/
def addressColumns (seqNum src : UInt32) (srcp : UInt16) (dest : UInt32) (destp : UInt16) : List (Column UInt8) :=
  [⟨dText 4 seqNum.toInt32, 58⟩, ⟨[], 32⟩, ⟨xText 8 src.toNat, 58⟩, ⟨xText 4 srcp.toNat, 32⟩,
    ⟨xText 8 dest.toNat, 58⟩, ⟨xText 4 destp.toNat, 32⟩]

/-- `"%02X %08X:%08X %02X:%08lX %08X "`. -/
def queueColumns (state : UInt8) (txQueue rxQueue : UInt32) (timerActive : UInt8) (expires : UInt64)
    (retransmits : UInt8) : List (Column UInt8) :=
  [⟨xText 2 state.toNat, 32⟩, ⟨xText 8 txQueue.toNat, 58⟩, ⟨xText 8 rxQueue.toNat, 32⟩,
    ⟨xText 2 timerActive.toNat, 58⟩, ⟨xText 8 expires.toNat, 32⟩, ⟨xText 8 retransmits.toNat, 32⟩]

/-- `"%5u %8d %lu %d %pK %lu %lu %u %u %d "`. -/
def TcpSock.stateColumns (configHz : UInt32) (tp : TcpSock) (uid : UInt32) : List (Column UInt8) :=
  [⟨padded 5 (uText uid.toNat), 32⟩, ⟨dText 8 tp.icskProbesOut.toUInt32.toInt32, 32⟩,
    ⟨uText (tp.skSocketIno.getD 0).toNat, 32⟩, ⟨dText 0 tp.skRefcnt, 32⟩, ⟨pText tp.pointer, 32⟩,
    ⟨uText (jiffiesToClockT configHz tp.icskRto.toUInt64).toNat, 32⟩,
    ⟨uText (jiffiesToClockT configHz tp.icskAckAto.toUInt64).toNat, 32⟩,
    ⟨uText tp.quickPingpong.toNat, 32⟩, ⟨uText tp.sndCwnd.toNat, 32⟩, ⟨dText 0 tp.qlenOrSsthresh, 32⟩]

/-- What `dump_tcp_sock` prints before "totrt". -/
def TcpSock.columns (configHz : UInt32) (sk : SockCommon) (tp : TcpSock) : List (Column UInt8) :=
  let (timerActive, timerExpires) := tp.timer sk.jiffies
  addressColumns sk.seqNum tp.inetRcvSaddr (bpfNtohs tp.inetSport) tp.inetDaddr (bpfNtohs tp.inetDport) ++
    queueColumns tp.skState (tp.writeSeq - tp.sndUna) tp.rxQueue timerActive
      (jiffiesDeltaToClockT configHz (timerExpires - sk.jiffiesLater).toInt64) tp.icskRetransmits ++
    tp.stateColumns configHz sk.uid

/-- `"totrt %u %lu"`. -/
def TcpSock.counts (tp : TcpSock) : List UInt8 :=
  bytes "totrt " ++ uText tp.totalRetrans.toNat ++ 32 :: uText tp.segsOut.toNat

def dumpTcpSock (configHz : UInt32) (sk : SockCommon) (tp : TcpSock) : List UInt8 :=
  columnsText (tp.columns configHz sk) ++ tp.counts ++ [10]

/-- `"%5d %8d %d %d %pK"`. -/
def tailColumns (uid refcnt : Int32) : List (Column UInt8) :=
  [⟨dText 5 uid, 32⟩, ⟨dText 8 0, 32⟩, ⟨dText 0 0, 32⟩, ⟨dText 0 refcnt, 32⟩]

def TcpTimewaitSock.columns (configHz : UInt32) (sk : SockCommon) (ttw : TcpTimewaitSock) : List (Column UInt8) :=
  addressColumns sk.seqNum ttw.twRcvSaddr (bpfNtohs ttw.twSport) ttw.twDaddr (bpfNtohs ttw.twDport) ++
    queueColumns ttw.twSubstate 0 0 3
      (jiffiesDeltaToClockT configHz (ttw.twTimerExpires - sk.jiffiesLater).toInt64) 0 ++
    tailColumns 0 ttw.twRefcnt

def dumpTwSock (configHz : UInt32) (sk : SockCommon) (ttw : TcpTimewaitSock) : List UInt8 :=
  columnsText (ttw.columns configHz sk) ++ pText ttw.pointer ++ [10]

def TcpRequestSock.columns (configHz : UInt32) (sk : SockCommon) (treq : TcpRequestSock) : List (Column UInt8) :=
  let ttd := (treq.rskTimerExpires - sk.jiffiesLater).toInt64
  -- the local port is in the order of the host already
  addressColumns sk.seqNum treq.irLocAddr treq.irNum treq.irRmtAddr (bpfNtohs treq.irRmtPort) ++
    queueColumns 3 0 0 1 (jiffiesToClockT configHz (if ttd < 0 then 0 else ttd.toUInt64)) treq.numTimeout ++
    tailColumns sk.uid.toInt32 0

def dumpReqSock (configHz : UInt32) (sk : SockCommon) (treq : TcpRequestSock) : List UInt8 :=
  columnsText (treq.columns configHz sk) ++ pText treq.pointer ++ [10]

/-- The names of the columns. -/
def listingHeader : List UInt8 :=
  bytes "  sl  local_address rem_address   st tx_queue rx_queue tr tm->when retrnsmt   uid  timeout inode"

/-- The line of the socket, if it is one of IPv4. -/
def dumpSock (configHz : UInt32) (sk : SockCommon) : List UInt8 :=
  if sk.skcFamily ≠ 2 then []
  else match sk.kind with
    | .tcp tp => dumpTcpSock configHz sk tp
    | .timewait ttw => dumpTwSock configHz sk ttw
    | .request treq => dumpReqSock configHz sk treq
    | .none => []

def dumpTcp4 (configHz : UInt32) (sk : SockCommon) : List UInt8 :=
  (if sk.seqNum = 0 then listingHeader ++ [10] else []) ++ dumpSock configHz sk

/-! ### Its characters and its width -/

section Width

variable {configHz : UInt32} {sk : SockCommon} {tp : TcpSock} {cs cs' : List (Column UInt8)} {k k' : ℕ}

/-- The time of a 32-bit number of jiffies has at most 13 digits, whatever `CONFIG_HZ` is. -/
theorem jiffiesToClockT_lt (configHz x : UInt32) : (jiffiesToClockT configHz x.toUInt64).toNat < 10 ^ 13 := by
  have hx := x.toNat_lt
  have hx64 : x.toUInt64.toNat = x.toNat := UInt32.toNat_toUInt64 x
  unfold jiffiesToClockT
  dsimp only
  split_ifs
  · have hdiv : (100 / configHz).toUInt64.toNat ≤ 100 := by
      rw [UInt32.toNat_toUInt64, UInt32.toNat_div]
      exact Nat.div_le_self 100 _
    have hmul : x.toNat * (100 / configHz).toUInt64.toNat ≤ x.toNat * 100 := Nat.mul_le_mul_left _ hdiv
    rw [UInt64.toNat_mul, hx64]
    omega
  · have hdiv := Nat.div_le_self x.toNat (configHz / 100).toUInt64.toNat
    rw [UInt64.toNat_div, hx64]
    omega
  · have hnsec : (1000000000 / 100 : UInt64).toNat = 10000000 := by decide
    rw [UInt64.toNat_div, UInt64.toNat_mul, hnsec]
    omega

/-- Printable columns with a blank or a colon behind each, no more than `k` characters. -/
structure Tidy (k : ℕ) (cs : List (Column UInt8)) : Prop where
  printable : ∀ c ∈ cs, ∀ x ∈ c.text, Printable x
  sep_eq : ∀ c ∈ cs, c.sep = 32 ∨ c.sep = 58
  length_le : (columnsText cs).length ≤ k

theorem Tidy.nil : Tidy 0 [] := ⟨by simp, by simp, by simp [columnsText]⟩

theorem Tidy.cons (text : List UInt8) (width : ℕ) (sep : UInt8) (hlen : text.length ≤ width)
    (hsep : sep = 32 ∨ sep = 58) (hp : ∀ x ∈ text, Printable x) (h : Tidy k cs) :
    Tidy (width + 1 + k) (⟨text, sep⟩ :: cs) := by
  refine ⟨List.forall_mem_cons.mpr ⟨hp, h.printable⟩, List.forall_mem_cons.mpr ⟨hsep, h.sep_eq⟩, ?_⟩
  have hk := h.length_le
  rw [columnsText_cons, List.length_append, List.length_cons]
  dsimp only
  omega

theorem Tidy.append (h : Tidy k cs) (h' : Tidy k' cs') : Tidy (k + k') (cs ++ cs') := by
  refine ⟨List.forall_mem_append.mpr ⟨h.printable, h'.printable⟩, List.forall_mem_append.mpr ⟨h.sep_eq, h'.sep_eq⟩, ?_⟩
  rw [columnsText_append, List.length_append]
  exact Nat.add_le_add h.length_le h'.length_le

theorem Tidy.printable_text (h : Tidy k cs) : ∀ x ∈ columnsText cs, Printable x := by
  intro x hx
  obtain ⟨c, hc, hmem | rfl⟩ := mem_columnsText.mp hx
  · exact h.printable c hc x hmem
  · rcases h.sep_eq c hc with hsep | hsep
    · exact hsep ▸ ⟨by decide, by decide⟩
    · exact hsep ▸ ⟨by decide, by decide⟩

/-- One column of `%X`, of the width of its argument. -/
theorem Tidy.hex (width n : ℕ) (sep : UInt8) (hw : 0 < width) (hn : n < 16 ^ width) (hsep : sep = 32 ∨ sep = 58)
    (h : Tidy k cs) : Tidy (width + 1 + k) (⟨xText width n, sep⟩ :: cs) :=
  h.cons _ _ _ (length_xText hw hn).le hsep printable_xText

/-- One column of `%u` or `%lu`. -/
theorem Tidy.dec (width n : ℕ) (hw : 0 < width) (hn : n < 10 ^ width) (h : Tidy k cs) :
    Tidy (width + 1 + k) (⟨uText n, 32⟩ :: cs) :=
  h.cons _ _ _ (length_uText_le hw hn) (.inl rfl) printable_uText

/-- One column of `%d`. -/
theorem Tidy.int (width : ℕ) (n : Int32) (sep : UInt8) (hw : width ≤ 11) (hsep : sep = 32 ∨ sep = 58)
    (h : Tidy k cs) : Tidy (11 + 1 + k) (⟨dText width n, sep⟩ :: cs) :=
  h.cons _ _ _ (length_dText_le hw) hsep printable_dText

theorem tidy_addressColumns (seqNum src : UInt32) (srcp : UInt16) (dest : UInt32) (destp : UInt16) :
    Tidy 41 (addressColumns seqNum src srcp dest destp) := by
  have hdestp := Tidy.nil.hex 4 destp.toNat 32 (by decide) destp.toNat_lt (.inl rfl)
  have hdest := hdestp.hex 8 dest.toNat 58 (by decide) dest.toNat_lt (.inr rfl)
  have hsrcp := hdest.hex 4 srcp.toNat 32 (by decide) srcp.toNat_lt (.inl rfl)
  have hsrc := hsrcp.hex 8 src.toNat 58 (by decide) src.toNat_lt (.inr rfl)
  have hblank := hsrc.cons [] 0 32 le_rfl (.inl rfl) (by simp)
  exact hblank.int 4 seqNum.toInt32 58 (by decide) (.inr rfl)

theorem tidy_queueColumns (state : UInt8) (txQueue rxQueue : UInt32) (timerActive : UInt8) (expires : UInt64)
    (retransmits : UInt8) : Tidy 50 (queueColumns state txQueue rxQueue timerActive expires retransmits) := by
  have hexpires : (xText 8 expires.toNat).length ≤ 16 := length_xText_le (by decide) (by decide) expires.toNat_lt
  have hretransmits := Tidy.nil.hex 8 retransmits.toNat 32 (by decide) (lt_trans retransmits.toNat_lt (by decide))
    (.inl rfl)
  have hclock := hretransmits.cons _ 16 32 hexpires (.inl rfl) printable_xText
  have htimer := hclock.hex 2 timerActive.toNat 58 (by decide) timerActive.toNat_lt (.inr rfl)
  have hrx := htimer.hex 8 rxQueue.toNat 32 (by decide) rxQueue.toNat_lt (.inl rfl)
  have htx := hrx.hex 8 txQueue.toNat 58 (by decide) txQueue.toNat_lt (.inr rfl)
  exact htx.hex 2 state.toNat 32 (by decide) state.toNat_lt (.inl rfl)

theorem tidy_stateColumns (configHz : UInt32) (tp : TcpSock) (uid : UInt32) :
    Tidy 135 (tp.stateColumns configHz uid) := by
  have hu32 : ∀ n : UInt32, n.toNat < 10 ^ 10 := fun n => lt_trans n.toNat_lt (by decide)
  have hu64 : ∀ n : UInt64, n.toNat < 10 ^ 20 := fun n => lt_trans n.toNat_lt (by decide)
  have huid : (padded 5 (uText uid.toNat)).length ≤ 10 :=
    length_padded_le (length_uText_le (by decide) (hu32 uid)) (by decide)
  have hqlen := Tidy.nil.int 0 tp.qlenOrSsthresh 32 (by decide) (.inl rfl)
  have hcwnd := hqlen.dec 10 _ (by decide) (hu32 tp.sndCwnd)
  have hquick := hcwnd.dec 10 _ (by decide) (hu32 tp.quickPingpong)
  have hato := hquick.dec 13 _ (by decide) (jiffiesToClockT_lt configHz tp.icskAckAto)
  have hrto := hato.dec 13 _ (by decide) (jiffiesToClockT_lt configHz tp.icskRto)
  have hpointer := hrto.cons _ 16 32 (length_pText tp.pointer).le (.inl rfl) printable_pText
  have hrefcnt := hpointer.int 0 tp.skRefcnt 32 (by decide) (.inl rfl)
  have hino := hrefcnt.dec 20 _ (by decide) (hu64 (tp.skSocketIno.getD 0))
  have hprobes := hino.int 8 tp.icskProbesOut.toUInt32.toInt32 32 (by decide) (.inl rfl)
  exact hprobes.cons _ 10 32 huid (.inl rfl) (printable_padded printable_uText)

theorem tidy_tailColumns (uid refcnt : Int32) : Tidy 48 (tailColumns uid refcnt) := by
  have hrefcnt := Tidy.nil.int 0 refcnt 32 (by decide) (.inl rfl)
  have hino := hrefcnt.int 0 0 32 (by decide) (.inl rfl)
  have hprobes := hino.int 8 0 32 (by decide) (.inl rfl)
  exact hprobes.int 5 uid 32 (by decide) (.inl rfl)

/-- The columns of a full socket. -/
theorem tidy_columns (configHz : UInt32) (sk : SockCommon) (tp : TcpSock) : Tidy 226 (tp.columns configHz sk) :=
  ((tidy_addressColumns ..).append (tidy_queueColumns ..)).append (tidy_stateColumns ..)

theorem tidy_twColumns (configHz : UInt32) (sk : SockCommon) (ttw : TcpTimewaitSock) :
    Tidy 139 (ttw.columns configHz sk) :=
  ((tidy_addressColumns ..).append (tidy_queueColumns ..)).append (tidy_tailColumns ..)

theorem tidy_reqColumns (configHz : UInt32) (sk : SockCommon) (treq : TcpRequestSock) :
    Tidy 139 (treq.columns configHz sk) :=
  ((tidy_addressColumns ..).append (tidy_queueColumns ..)).append (tidy_tailColumns ..)

end Width

end TuningMod
