/-
# The totals of the connections to the destination

`doRunFindRetransmissionRate` looks for the eight digits of the destination in
each line of the TCP sockets, anywhere in it, and then for "totrt", behind which
the retransmissions and the segments stand. So a full socket to another address
is counted too if the digits occur in one of its other columns: its own address,
its queues, timers, user, inode, pointer or windows. What stands behind "totrt"
and what the other sockets print is never taken for a match.

Key definitions: `readTcp4`, `Matching`, `Stray`, `ReadsBack`.
Key theorems: `turn_full`, `readTcp4_eq`, `readsBack_iff`, `snapshot_eq`.
-/
import TuningMod.Destination
import TuningMod.Lib.Fgets
import TuningMod.Retransmission
import TuningMod.TcpSockets
import TuningMod.UserConfig

namespace TuningMod

open Search

/-! ### Reading the lines -/

/-- `total_retrans` and `packets_sent`, and `found`. -/
structure TcpReading where
  totals : Totals := {}
  found : Bool := false
deriving DecidableEq

/-- `strtoul` on digits. -/
def strtoulText (aValue : List UInt8) : UInt64 := UInt64.ofNat (min (decimal aValue) (2 ^ 64 - 1))

/-- The digits at `foundstr`, if `aValue` has room for them, and what is behind. -/
def readValue (foundstr : List UInt8) : Option (List UInt8 × List UInt8) := do
  let (aValue, rest) ← KeyValues.scanWhile isdigit foundstr
  if aValue.length < 32 then some (aValue, rest) else none

/-- One turn of the loop, with what `fgets` has left in `buffer`. -/
def TcpReading.turn (aDestIp2Binary : List UInt8) (r : TcpReading) (buffer : List UInt8) : Option TcpReading :=
  match (find aDestIp2Binary (cText buffer)).bind (find (bytes "totrt")) with
  | none => some r
  | some foundstr => do
    -- the text goes up to its NUL
    let (aValue, foundstr) ← readValue ((foundstr ++ [0]).drop 6)
    if aValue = [] then return r
    else
      let totalRetrans := r.totals.totalRetrans + strtoulText aValue
      let (aValue, _) ← readValue (foundstr.drop 1)
      let packetsSent := if aValue = [] then r.totals.packetsSent else r.totals.packetsSent + strtoulText aValue
      return ⟨⟨totalRetrans, packetsSent⟩, true⟩

/-- The loop over what `cat /sys/fs/bpf/tcp4` prints. -/
def readTcp4 (aDestIp2Binary output : List UInt8) : Option TcpReading :=
  (Fgets.pieces 10 255 output).foldlM (TcpReading.turn aDestIp2Binary) {}

/-! ### What should be read -/

/-- The full socket of IPv4. -/
def SockCommon.tcpSock (sk : SockCommon) : Option TcpSock :=
  if sk.skcFamily ≠ 2 then none
  else match sk.kind with
    | .tcp tp => some tp
    | _ => none

def fullSocks (sks : List SockCommon) : List (SockCommon × TcpSock) :=
  sks.filterMap fun sk => sk.tcpSock.map fun tp => (sk, tp)

def sumOf (f : TcpSock → UInt32) (socks : List (SockCommon × TcpSock)) : ℕ := (socks.map fun s => (f s.2).toNat).sum

/-- The remote address is the destination. -/
def RemoteIs (dest : UInt32) (s : SockCommon × TcpSock) : Prop := s.2.inetDaddr = dest

instance (dest : UInt32) : DecidablePred (RemoteIs dest) := fun s => inferInstanceAs (Decidable (s.2.inetDaddr = dest))

/-- One of the columns before "totrt" has the digits. -/
def Matching (configHz dest : UInt32) (s : SockCommon × TcpSock) : Prop :=
  ∃ c ∈ s.2.columns configHz s.1, hex8 dest <:+: c.text

instance (configHz dest : UInt32) : DecidablePred (Matching configHz dest) := fun s =>
  inferInstanceAs (Decidable (∃ c ∈ s.2.columns configHz s.1, hex8 dest <:+: c.text))

/-- The remote address is another one, and another column has the digits. -/
def Stray (configHz dest : UInt32) (s : SockCommon × TcpSock) : Prop :=
  ¬ RemoteIs dest s ∧ Matching configHz dest s

instance (configHz dest : UInt32) : DecidablePred (Stray configHz dest) := fun _ =>
  inferInstanceAs (Decidable (_ ∧ _))

/-- The totals read are those of the full sockets to the destination, and one is
found just if there is one. -/
def ReadsBack (configHz dest : UInt32) (sks : List SockCommon) : Prop :=
  ∃ r, readTcp4 (hex8 dest) (sks.flatMap (dumpTcp4 configHz)) = some r ∧
    r.totals.totalRetrans.toNat = sumOf TcpSock.totalRetrans ((fullSocks sks).filter (RemoteIs dest)) ∧
    r.totals.packetsSent.toNat = sumOf TcpSock.segsOut ((fullSocks sks).filter (RemoteIs dest)) ∧
    (r.found = true ↔ ∃ s ∈ fullSocks sks, RemoteIs dest s)

/-! ### One line -/

section Line

variable {configHz dest : UInt32} {sk : SockCommon} {tp : TcpSock} {r : TcpReading} {cs : List (Column UInt8)}
  {k n : ℕ} {c : UInt8} {body p rest : List UInt8}

/-- A digit or a letter from `A` to `F`. -/
theorem mem_hex8 (hc : c ∈ hex8 dest) : (48 ≤ c ∧ c ≤ 57) ∨ (65 ≤ c ∧ c ≤ 70) := by
  rw [← hex8_eq] at hc
  exact mem_xText hc

theorem hex8_ne_nil (dest : UInt32) : hex8 dest ≠ [] := by
  intro h
  cases congrArg List.length h

/-- Other characters are not in it. -/
theorem notMem_hex8 (hc : ¬ ((48 ≤ c ∧ c ≤ 57) ∨ (65 ≤ c ∧ c ≤ 70))) : c ∉ hex8 dest := fun h => hc (mem_hex8 h)

theorem readValue_uText (hn : n < 10 ^ 31) (hc : isdigit c = false) :
    readValue (uText n ++ c :: rest) = some (uText n, c :: rest) := by
  have hlen : (uText n).length < 32 := Nat.lt_succ_of_le (length_uText_le (by decide) hn)
  rw [readValue, KeyValues.scanWhile_append (fun _ => isdigit_uText) hc]
  exact if_pos hlen

theorem strtoulText_uText (x : UInt32) : strtoulText (uText x.toNat) = x.toUInt64 := by
  have hx := x.toNat_lt
  rw [strtoulText, decimal_uText, min_eq_left (by omega)]
  apply UInt64.toNat_inj.mp
  rw [UInt32.toNat_toUInt64, UInt64.toNat_ofNat']
  omega

theorem cText_line (hz : 0 ∉ body) : cText (body ++ [10]) = body ++ [10] := by
  refine cText_eq fun c hc => ?_
  rintro rfl
  rcases List.mem_append.mp hc with hc | hc
  · exact hz hc
  · exact absurd (List.mem_singleton.mp hc) (by decide)

/-- A line without a `t` changes nothing. -/
theorem turn_eq_self (hz : 0 ∉ body) (ht : 116 ∉ body) : r.turn (hex8 dest) (body ++ [10]) = some r := by
  have hline : (116 : UInt8) ∉ body ++ [10] := by
    rw [List.mem_append, not_or]
    exact ⟨ht, by decide⟩
  rw [TcpReading.turn, cText_line hz, bind_find_eq_none (by decide) hline]

/-- What a full socket's line adds. -/
def TcpReading.add (r : TcpReading) (tp : TcpSock) : TcpReading :=
  ⟨⟨r.totals.totalRetrans + tp.totalRetrans.toUInt64, r.totals.packetsSent + tp.segsOut.toUInt64⟩, true⟩

/-- What is behind "totrt" and its blank. -/
def countsText (tp : TcpSock) : List UInt8 := uText tp.totalRetrans.toNat ++ 32 :: (uText tp.segsOut.toNat ++ [10])

theorem t_notMem_countsText : 116 ∉ countsText tp := by
  rw [countsText, List.mem_append, List.mem_cons, List.mem_append, List.mem_singleton]
  rintro (h | h | h | h)
  · exact notMem_uText (by decide) h
  · cases h
  · exact notMem_uText (by decide) h
  · cases h

theorem dump_eq : dumpTcpSock configHz sk tp =
    columnsText (tp.columns configHz sk) ++ (bytes "totrt" ++ 32 :: countsText tp) := by
  rw [dumpTcpSock, TcpSock.counts, countsText, show bytes "totrt " = bytes "totrt" ++ [32] by decide]
  simp

/-- No character of a full socket's line is below a blank but its end. -/
theorem blank_le_of_mem (hc : c ∈ columnsText (tp.columns configHz sk) ++ tp.counts) : 32 ≤ c := by
  have htotrt : ∀ c ∈ bytes "totrt ", 32 ≤ c := by decide +kernel
  rw [TcpSock.counts, List.mem_append, List.mem_append, List.mem_append, List.mem_cons] at hc
  rcases hc with hc | (hc | hc) | rfl | hc
  · exact ((tidy_columns configHz sk tp).printable_text c hc).1
  · exact htotrt c hc
  · exact (printable_uText c hc).1
  · decide
  · exact (printable_uText c hc).1

/-- Where "totrt" is found. -/
theorem find_totrt (h : Tidy k cs) : (find (hex8 dest) (columnsText cs ++ (bytes "totrt" ++ 32 :: countsText tp))).bind
      (find (bytes "totrt")) =
    if hex8 dest <:+: columnsText cs then some (bytes "totrt" ++ 32 :: countsText tp) else none := by
  have hne := hex8_ne_nil dest
  have ht : (116 : UInt8) ∉ columnsText cs := fun hmem => absurd (h.printable_text 116 hmem).2 (by decide)
  have htotrt : bytes "totrt" = 116 :: bytes "otrt" := by decide
  -- the digits are before "totrt" or behind it
  have hsplit := find_append_cons (a := columnsText cs) (b := bytes "otrt" ++ 32 :: countsText tp)
    (notMem_hex8 (c := 116) (by decide)) hne
  rw [← List.cons_append, ← htotrt] at hsplit
  rw [hsplit]
  by_cases hin : hex8 dest <:+: columnsText cs
  · obtain ⟨p, hp⟩ := Option.ne_none_iff_exists'.mp (mt find_eq_none_iff.mp (not_not.mpr hin))
    have htp : (116 : UInt8) ∉ p := fun hmem => ht ((suffix_of_find hp).isInfix.mem hmem)
    rw [hp, if_pos hin, Option.map_some, Option.some_or, Option.bind_some, htotrt]
    exact find_first htp
  · have hskip : find (hex8 dest) (bytes "otrt" ++ 32 :: countsText tp) = find (hex8 dest) (countsText tp) := by
      have hskipped : find (hex8 dest) (bytes "otrt" ++ [32] ++ countsText tp) = find (hex8 dest) (countsText tp) :=
        find_skip (fun y hy => notMem_hex8 (by revert y; decide +kernel)) hne
      rwa [List.append_assoc, List.singleton_append] at hskipped
    rw [find_eq_none_iff.mpr hin, if_neg hin, Option.map_none, Option.none_or, hskip,
      bind_find_eq_none (by decide) t_notMem_countsText]

/-- **A full socket's line counts if one of its columns has the digits.** -/
theorem turn_full : r.turn (hex8 dest) (dumpTcpSock configHz sk tp) =
    some (if Matching configHz dest (sk, tp) then r.add tp else r) := by
  have htidy := tidy_columns configHz sk tp
  have hmatch : hex8 dest <:+: columnsText (tp.columns configHz sk) ↔ Matching configHz dest (sk, tp) :=
    infix_columnsText (hex8_ne_nil dest) fun c hc => by
      rcases htidy.sep_eq c hc with hsep | hsep
      · exact hsep ▸ notMem_hex8 (by decide)
      · exact hsep ▸ notMem_hex8 (by decide)
  have htext : cText (dumpTcpSock configHz sk tp) = dumpTcpSock configHz sk tp :=
    cText_line fun hc => absurd (blank_le_of_mem hc) (by decide)
  rw [TcpReading.turn, htext, dump_eq, find_totrt htidy]
  simp only [hmatch]
  split_ifs with hm
  · have hdrop : (bytes "totrt" ++ 32 :: countsText tp ++ [0]).drop 6 =
        uText tp.totalRetrans.toNat ++ 32 :: (uText tp.segsOut.toNat ++ 10 :: [0]) := by
      rw [countsText]
      simp [bytes]
    have hretrans : tp.totalRetrans.toNat < 10 ^ 31 := lt_trans tp.totalRetrans.toNat_lt (by decide)
    have hsegs : tp.segsOut.toNat < 10 ^ 31 := lt_trans tp.segsOut.toNat_lt (by decide)
    have hne : ∀ n, uText n ≠ [] := fun n => (numeral_uText n).1
    simp only [hdrop, readValue_uText hretrans (c := 32) (by decide), Option.bind_eq_bind, Option.bind_some,
      if_neg (hne _), List.drop_succ_cons, List.drop_zero, readValue_uText hsegs (c := 10) (by decide),
      strtoulText_uText]
    rfl
  · rfl

end Line

/-! ### The whole listing -/

section Listing

variable {configHz dest : UInt32} {sk : SockCommon} {sks : List SockCommon} {r : TcpReading}
  {body rest : List UInt8} {s : SockCommon × TcpSock} {socks : List (SockCommon × TcpSock)}

/-- The names of the columns have no digits of an address. -/
theorem turn_header : r.turn (hex8 dest) (listingHeader ++ [10]) = some r := by
  have htext : cText (listingHeader ++ [10]) = listingHeader ++ [10] := by decide +kernel
  have hchars : ∀ c ∈ listingHeader ++ [10], ¬ ((48 ≤ c ∧ c ≤ 57) ∨ (65 ≤ c ∧ c ≤ 70)) := by decide +kernel
  have hnone : find (hex8 dest) (listingHeader ++ [10]) = none := by
    refine find_eq_none_iff.mpr fun hoccurs => ?_
    obtain ⟨c, hc⟩ := List.exists_mem_of_ne_nil _ (hex8_ne_nil dest)
    exact hchars c (hoccurs.mem hc) (mem_hex8 hc)
  rw [TcpReading.turn, htext, hnone]
  rfl

/-- What the reading becomes with a full socket. -/
def TcpReading.see (configHz dest : UInt32) (r : TcpReading) (s : SockCommon × TcpSock) : TcpReading :=
  if Matching configHz dest s then r.add s.2 else r

/-- The loop over a text that starts with a line that fits. -/
theorem read_line (h10 : 10 ∉ body) (hlen : body.length < 255) :
    (Fgets.pieces 10 255 (body ++ [10] ++ rest)).foldlM (TcpReading.turn (hex8 dest)) r =
      (r.turn (hex8 dest) (body ++ [10])).bind
        ((Fgets.pieces 10 255 rest).foldlM (TcpReading.turn (hex8 dest))) := by
  rw [List.append_assoc, List.singleton_append, Fgets.pieces_line h10 hlen, List.foldlM_cons]
  rfl

/-- The lines of other sockets have printable characters only up to `f`. -/
theorem read_printable (hp : ∀ c ∈ body, Printable c) (hlen : body.length < 255) :
    (Fgets.pieces 10 255 (body ++ [10] ++ rest)).foldlM (TcpReading.turn (hex8 dest)) r =
      (Fgets.pieces 10 255 rest).foldlM (TcpReading.turn (hex8 dest)) r := by
  have h10 : (10 : UInt8) ∉ body := fun h => absurd (hp 10 h).1 (by decide)
  have hz : (0 : UInt8) ∉ body := fun h => absurd (hp 0 h).1 (by decide)
  have ht : (116 : UInt8) ∉ body := fun h => absurd (hp 116 h).2 (by decide)
  rw [read_line h10 hlen, turn_eq_self hz ht, Option.bind_some]

theorem read_tcpSock (tp : TcpSock) :
    (Fgets.pieces 10 255 (dumpTcpSock configHz sk tp ++ rest)).foldlM (TcpReading.turn (hex8 dest)) r =
      (Fgets.pieces 10 255 rest).foldlM (TcpReading.turn (hex8 dest)) (r.see configHz dest (sk, tp)) := by
  have htidy := tidy_columns configHz sk tp
  have hretrans : (uText tp.totalRetrans.toNat).length ≤ 10 :=
    length_uText_le (by decide) (lt_trans tp.totalRetrans.toNat_lt (by decide))
  have hsegs : (uText tp.segsOut.toNat).length ≤ 10 :=
    length_uText_le (by decide) (lt_trans tp.segsOut.toNat_lt (by decide))
  have htotrt : (bytes "totrt ").length = 6 := by decide
  have hlen : (columnsText (tp.columns configHz sk) ++ tp.counts).length < 255 := by
    have hcolumns := htidy.length_le
    rw [TcpSock.counts, List.length_append, List.length_append, List.length_append, List.length_cons, htotrt]
    omega
  have h10 : (10 : UInt8) ∉ columnsText (tp.columns configHz sk) ++ tp.counts :=
    fun hc => absurd (blank_le_of_mem hc) (by decide)
  have hturn := @turn_full configHz dest sk tp r
  rw [dumpTcpSock] at hturn ⊢
  rw [read_line h10 hlen, hturn, Option.bind_some]
  rfl

theorem fullSocks_singleton (sk : SockCommon) :
    fullSocks [sk] = (sk.tcpSock.map fun tp => (sk, tp)).toList := by
  rw [fullSocks, List.filterMap_cons]
  cases sk.tcpSock <;> rfl

/-- The line of one socket. -/
theorem read_dumpSock (sk : SockCommon) :
    (Fgets.pieces 10 255 (dumpSock configHz sk ++ rest)).foldlM (TcpReading.turn (hex8 dest)) r =
      (Fgets.pieces 10 255 rest).foldlM (TcpReading.turn (hex8 dest))
        ((fullSocks [sk]).foldl (TcpReading.see configHz dest) r) := by
  have hpointer : ∀ {cs : List (Column UInt8)} (n : UInt64), Tidy 139 cs →
      (∀ c ∈ columnsText cs ++ pText n, Printable c) ∧ (columnsText cs ++ pText n).length < 255 := by
    intro cs n htidy
    have hlen := htidy.length_le
    refine ⟨List.forall_mem_append.mpr ⟨htidy.printable_text, printable_pText⟩, ?_⟩
    rw [List.length_append, length_pText]
    omega
  rw [fullSocks_singleton]
  unfold dumpSock SockCommon.tcpSock
  by_cases hfamily : sk.skcFamily ≠ 2
  · rw [if_pos hfamily, if_pos hfamily]
    rfl
  · rw [if_neg hfamily, if_neg hfamily]
    cases sk.kind with
    | tcp tp => exact read_tcpSock tp
    | timewait ttw =>
      obtain ⟨hp, hlen⟩ := hpointer ttw.pointer (tidy_twColumns configHz sk ttw)
      exact read_printable hp hlen
    | request treq =>
      obtain ⟨hp, hlen⟩ := hpointer treq.pointer (tidy_reqColumns configHz sk treq)
      exact read_printable hp hlen
    | none => rfl

/-- The lines of one call. -/
theorem read_sock (sk : SockCommon) :
    (Fgets.pieces 10 255 (dumpTcp4 configHz sk ++ rest)).foldlM (TcpReading.turn (hex8 dest)) r =
      (Fgets.pieces 10 255 rest).foldlM (TcpReading.turn (hex8 dest))
        ((fullSocks [sk]).foldl (TcpReading.see configHz dest) r) := by
  unfold dumpTcp4
  split_ifs
  · rw [List.append_assoc, read_line (by decide +kernel) (by decide +kernel), turn_header, Option.bind_some,
      read_dumpSock]
  · exact read_dumpSock sk

/-- **What is read** of the full sockets, in turn. -/
theorem readTcp4_eq (configHz dest : UInt32) (sks : List SockCommon) :
    readTcp4 (hex8 dest) (sks.flatMap (dumpTcp4 configHz)) =
      some ((fullSocks sks).foldl (TcpReading.see configHz dest) {}) := by
  have hfold : ∀ (sks : List SockCommon) (r : TcpReading),
      (Fgets.pieces 10 255 (sks.flatMap (dumpTcp4 configHz))).foldlM (TcpReading.turn (hex8 dest)) r =
        some ((fullSocks sks).foldl (TcpReading.see configHz dest) r) := by
    intro sks
    induction sks with
    | nil => intro r; rfl
    | cons sk sks ih =>
      intro r
      have hcons : fullSocks (sk :: sks) = fullSocks [sk] ++ fullSocks sks :=
        @List.filterMap_append _ _ [sk] sks _
      rw [List.flatMap_cons, read_sock, ih, hcons, List.foldl_append]
  exact hfold sks {}

/-! ### The totals -/

/-- The sums go round at 64 bits. -/
theorem foldl_see (socks : List (SockCommon × TcpSock)) (r : TcpReading) :
    (socks.foldl (TcpReading.see configHz dest) r).totals.totalRetrans.toNat =
        (r.totals.totalRetrans.toNat + sumOf TcpSock.totalRetrans (socks.filter (Matching configHz dest))) % 2 ^ 64 ∧
      (socks.foldl (TcpReading.see configHz dest) r).totals.packetsSent.toNat =
        (r.totals.packetsSent.toNat + sumOf TcpSock.segsOut (socks.filter (Matching configHz dest))) % 2 ^ 64 ∧
      ((socks.foldl (TcpReading.see configHz dest) r).found = true ↔
        r.found = true ∨ ∃ s ∈ socks, Matching configHz dest s) := by
  induction socks generalizing r with
  | nil =>
    have hretrans := r.totals.totalRetrans.toNat_lt
    have hpackets := r.totals.packetsSent.toNat_lt
    refine ⟨?_, ?_, by simp⟩
    · rw [List.foldl_nil, List.filter_nil, sumOf, List.map_nil, List.sum_nil]
      omega
    · rw [List.foldl_nil, List.filter_nil, sumOf, List.map_nil, List.sum_nil]
      omega
  | cons s socks ih =>
    obtain ⟨hretrans, hpackets, hfound⟩ := ih (r.see configHz dest s)
    rw [List.foldl_cons, hretrans, hpackets, hfound, List.exists_mem_cons_iff]
    by_cases hm : Matching configHz dest s
    · have hsee : r.see configHz dest s = r.add s.2 := if_pos hm
      have hadd : ∀ (x : UInt64) (y : UInt32), (x + y.toUInt64).toNat = (x.toNat + y.toNat) % 2 ^ 64 := by
        intro x y
        rw [UInt64.toNat_add, UInt32.toNat_toUInt64]
      rw [hsee, List.filter_cons_of_pos (by simpa using hm)]
      simp only [TcpReading.add, sumOf, List.map_cons, List.sum_cons, hadd, hm, true_or, or_true, and_true]
      omega
    · have hsee : r.see configHz dest s = r := if_neg hm
      rw [hsee, List.filter_cons_of_neg (by simpa using hm)]
      simp only [hm, false_or, and_self]

theorem matching_of_remoteIs (h : RemoteIs dest s) : Matching configHz dest s := by
  refine ⟨⟨xText 8 s.2.inetDaddr.toNat, 58⟩, by simp [TcpSock.columns, addressColumns], ?_⟩
  rw [show s.2.inetDaddr = dest from h, hex8_eq]

/-- The sockets that match are those to the destination and the strays. -/
theorem sumOf_matching (f : TcpSock → UInt32) (socks : List (SockCommon × TcpSock)) :
    sumOf f (socks.filter (Matching configHz dest)) =
      sumOf f (socks.filter (RemoteIs dest)) + sumOf f (socks.filter (Stray configHz dest)) := by
  induction socks with
  | nil => rfl
  | cons s socks ih =>
    unfold sumOf at ih ⊢
    by_cases hr : RemoteIs dest s
    · have hm : Matching configHz dest s := matching_of_remoteIs hr
      have hs : ¬ Stray configHz dest s := fun h => h.1 hr
      simp only [List.filter_cons, hm, hr, hs, decide_true, decide_false, if_true, List.map_cons, List.sum_cons, ih]
      simp only [Bool.false_eq_true, if_false]
      omega
    · by_cases hm : Matching configHz dest s
      · have hs : Stray configHz dest s := ⟨hr, hm⟩
        simp only [List.filter_cons, hm, hr, hs, decide_true, decide_false, if_true, List.map_cons, List.sum_cons, ih]
        simp only [Bool.false_eq_true, if_false]
        omega
      · have hs : ¬ Stray configHz dest s := fun h => hm h.2
        simp only [List.filter_cons, hm, hr, hs, decide_false, Bool.false_eq_true, if_false, ih]

theorem exists_matching_iff : (∃ s ∈ socks, Matching configHz dest s) ↔
    (∃ s ∈ socks, RemoteIs dest s) ∨ ∃ s ∈ socks, Stray configHz dest s := by
  constructor
  · rintro ⟨s, hs, hm⟩
    by_cases hr : RemoteIs dest s
    · exact .inl ⟨s, hs, hr⟩
    · exact .inr ⟨s, hs, hr, hm⟩
  · rintro (⟨s, hs, hr⟩ | ⟨s, hs, hstray⟩)
    · exact ⟨s, hs, matching_of_remoteIs hr⟩
    · exact ⟨s, hs, hstray.2⟩

end Listing

/-- A sum of 64 bits is its first part. -/
theorem add_mod_eq_iff {a b : ℕ} : (a + b) % 2 ^ 64 = a ↔ a < 2 ^ 64 ∧ 2 ^ 64 ∣ b := by omega

/-- **When the totals are read back.** Those of the connections to the
destination fit into 64 bits, those of the strays add nothing to them, and there
is no stray without a connection to the destination. -/
theorem readsBack_iff (configHz dest : UInt32) (sks : List SockCommon) : ReadsBack configHz dest sks ↔
    (sumOf TcpSock.totalRetrans ((fullSocks sks).filter (RemoteIs dest)) < 2 ^ 64 ∧
      2 ^ 64 ∣ sumOf TcpSock.totalRetrans ((fullSocks sks).filter (Stray configHz dest))) ∧
    (sumOf TcpSock.segsOut ((fullSocks sks).filter (RemoteIs dest)) < 2 ^ 64 ∧
      2 ^ 64 ∣ sumOf TcpSock.segsOut ((fullSocks sks).filter (Stray configHz dest))) ∧
    ((∃ s ∈ fullSocks sks, Stray configHz dest s) → ∃ s ∈ fullSocks sks, RemoteIs dest s) := by
  obtain ⟨hretrans, hpackets, hfound⟩ := @foldl_see configHz dest (fullSocks sks) {}
  have hzero : (0 : UInt64).toNat = 0 := rfl
  rw [hzero, Nat.zero_add, sumOf_matching] at hretrans hpackets
  rw [exists_matching_iff] at hfound
  unfold ReadsBack
  rw [readTcp4_eq]
  simp only [Option.some.injEq, exists_eq_left', hretrans, hpackets, hfound, add_mod_eq_iff]
  refine and_congr_right fun _ => and_congr_right fun _ => ?_
  simp only [Bool.false_eq_true, false_or]
  exact ⟨fun h hstray => h.mp (.inr hstray), fun h => ⟨fun hor => hor.elim id h, .inl⟩⟩

/-- What a round goes on with. -/
def TcpReading.snapshot (r : TcpReading) : Snapshot := if r.found then .found r.totals else .notFound

/-- A round whose totals are read back is one of the connections to the destination. -/
theorem snapshot_eq {configHz dest : UInt32} {sks : List SockCommon} (h : ReadsBack configHz dest sks) :
    (readTcp4 (hex8 dest) (sks.flatMap (dumpTcp4 configHz))).map TcpReading.snapshot =
      some (if ∃ s ∈ fullSocks sks, RemoteIs dest s then
        .found ⟨UInt64.ofNat (sumOf TcpSock.totalRetrans ((fullSocks sks).filter (RemoteIs dest))),
          UInt64.ofNat (sumOf TcpSock.segsOut ((fullSocks sks).filter (RemoteIs dest)))⟩
        else .notFound) := by
  obtain ⟨r, hread, hretrans, hpackets, hfound⟩ := h
  rw [hread, Option.map_some, TcpReading.snapshot, ← hretrans, ← hpackets, UInt64.ofNat_toNat, UInt64.ofNat_toNat]
  simp only [hfound]

/-- A connection to 10.3.46.1 that has sent 36569866 bytes without an answer. -/
def queued : SockCommon where
  seqNum := 11
  uid := 0
  skcFamily := 2
  jiffies := 4300000000
  jiffiesLater := 4300000000
  kind := .tcp {
    inetRcvSaddr := 0x022e030b, inetDaddr := 0x012e030a, inetSport := 0x2f8b, inetDport := 0x5114
    skState := 1, skTimerPending := false, skTimerExpires := 0, skAckBacklog := 0, skRefcnt := 2
    skSocketIno := some 13297797
    icskPending := 1, icskTimeout := 4300000200, icskRetransmits := 0, icskProbesOut := 0, icskRto := 410
    icskAckAto := 0, icskAckQuick := 0, icskAckPingpong := 0, maxQlen := 0
    rcvNxt := 1, copiedSeq := 1, writeSeq := 36569867, sndUna := 1, sndCwnd := 3722, sndSsthresh := 500
    totalRetrans := 79, segsOut := 25300, pointer := 0x367a51de }

/-- Their number is the address 10.3.46.2 in hexadecimal digits. -/
theorem not_readsBack : ¬ ReadsBack 1000 0x022e030a [queued] := by
  rintro ⟨r, hread, hretrans, -⟩
  have hr : readTcp4 (hex8 0x022e030a) ([queued].flatMap (dumpTcp4 1000)) = some ⟨⟨79, 25300⟩, true⟩ := by
    decide +kernel
  rw [hr] at hread
  obtain rfl := Option.some.inj hread
  exact absurd hretrans (by decide)

end TuningMod
