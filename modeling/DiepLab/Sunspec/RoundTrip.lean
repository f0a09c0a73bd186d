import DiepLab.Sunspec.Modbus

/-!
What the client reads and writes.

A transaction brings back what the server makes of its request (`txn_eq`), so
that the requests into which a call is cut read and write block after block of
the registers (`readHolding_eq`, `writeRegisters_eq`).
-/

namespace DiepLab.Sunspec

open Bytes Segments

/-! ### Codec -/

theorem length_packWords (values : List UInt16) :
    (packWords values).length = 2 * values.length := by
  induction values with
  | nil => rfl
  | cons v values ih =>
      rw [packWords, List.flatMap_cons, List.length_append, length_beBytes, ← packWords, ih,
        List.length_cons]
      omega

theorem beNat_beBytes_word (v : UInt16) : beNat (beBytes 2 v.toNat) = v.toNat :=
  beNat_beBytes_of_lt v.toNat_lt

theorem words_packWords (values : List UInt16) : words (packWords values) = values := by
  induction values with
  | nil => rfl
  | cons v values ih =>
      obtain ⟨hi, lo, hpair⟩ := List.length_eq_two.mp (length_beBytes 2 v.toNat)
      rw [packWords, List.flatMap_cons, hpair, List.cons_append, List.cons_append,
        List.nil_append, words, ← packWords, ih, ← hpair, beNat_beBytes_word, UInt16.ofNat_toNat]

/-- An even number of bytes is the bytes of its words. -/
theorem packWords_words {n : ℕ} {bs : List UInt8} (h : bs.length = 2 * n) :
    (words bs).length = n ∧ packWords (words bs) = bs := by
  induction n generalizing bs with
  | zero =>
      rw [List.eq_nil_of_length_eq_zero h]
      exact ⟨rfl, rfl⟩
  | succ n ih =>
      match bs, h with
      | hi :: lo :: rest, h =>
          rw [List.length_cons, List.length_cons] at h
          have hevenRest : rest.length = 2 * n := by omega
          obtain ⟨hlength, hrest⟩ := ih hevenRest
          have hlt : beNat [hi, lo] < 65536 := by
            have hhi := hi.toNat_lt
            have hlo := lo.toNat_lt
            simp only [beNat, List.reverse_cons, List.reverse_nil, List.nil_append,
              List.cons_append, leNat_cons, leNat_nil]
            omega
          have hword : beBytes 2 (UInt16.ofNat (beNat [hi, lo])).toNat = [hi, lo] := by
            rw [UInt16.toNat_ofNat', Nat.mod_eq_of_lt hlt]
            exact beBytes_beNat [hi, lo]
          refine ⟨by rw [words, List.length_cons, hlength], ?_⟩
          rw [words, packWords, List.flatMap_cons, hword, ← packWords, hrest]
          rfl

theorem unpackWords_packWords (values : List UInt16) :
    unpackWords values.length (packWords values) = .ok values := by
  rw [unpackWords, if_pos (length_packWords values), words_packWords]

theorem packH_of_lt {n : ℕ} (h : n < 65536) : packH n = .ok (beBytes 2 n) := if_pos h

theorem packB_of_lt {n : ℕ} (h : n < 256) : packB n = .ok (UInt8.ofNat n) := if_pos h

theorem unpackPair_beBytes {m n : ℕ} (hm : m < 65536) (hn : n < 65536) :
    unpackPair (beBytes 2 m ++ beBytes 2 n) = .ok (m, n) := by
  rw [unpackPair, if_pos (by simp), List.take_left' (length_beBytes 2 m),
    List.drop_left' (length_beBytes 2 m), beNat_beBytes_of_lt hm, beNat_beBytes_of_lt hn]

theorem mbap_of_lt (tx : UInt16) (unit : UInt8) {pdu : List UInt8} (h : pdu.length + 1 < 65536) :
    mbap tx unit pdu =
      .ok (beBytes 2 tx.toNat ++ beBytes 2 0 ++ beBytes 2 (pdu.length + 1) ++ [unit] ++ pdu) := by
  rw [mbap, packH_of_lt h]
  rfl

theorem unpackHeader_eq (tx : UInt16) {length : ℕ} (h : length < 65536) (unit : UInt8) :
    unpackHeader (beBytes 2 tx.toNat ++ beBytes 2 0 ++ beBytes 2 length ++ [unit]) =
      (tx, length, unit) := by
  obtain ⟨hi, lo, htx⟩ := List.length_eq_two.mp (length_beBytes 2 tx.toNat)
  obtain ⟨p, q, hproto⟩ := List.length_eq_two.mp (length_beBytes 2 0)
  obtain ⟨a, b, hlength⟩ := List.length_eq_two.mp (length_beBytes 2 length)
  have htx' := beNat_beBytes_word tx
  have hlength' := beNat_beBytes_of_lt (k := 2) h
  rw [htx] at htx'
  rw [hlength] at hlength'
  rw [htx, hproto, hlength, unpackHeader]
  simp only [List.cons_append, List.nil_append, List.take_succ_cons, List.take_zero,
    List.drop_succ_cons, List.drop_zero, htx', hlength', UInt16.ofNat_toNat]
  rfl

/-- A frame at the beginning of a stream is received as its header and its PDU. -/
theorem recv_frame {stream : Segments UInt8} {tx : UInt16} {unit : UInt8} {pdu rest : List UInt8}
    (h : content stream =
      beBytes 2 tx.toNat ++ beBytes 2 0 ++ beBytes 2 (pdu.length + 1) ++ [unit] ++ pdu ++ rest) :
    ∃ s s', recvExact 7 stream =
        some (beBytes 2 tx.toNat ++ beBytes 2 0 ++ beBytes 2 (pdu.length + 1) ++ [unit], s) ∧
      recvExact pdu.length s = some (pdu, s') ∧ content s' = rest := by
  rw [List.append_assoc] at h
  obtain ⟨s, hheader, hs⟩ := recvExact_of_content h
  obtain ⟨s', hpdu, hs'⟩ := recvExact_of_content hs
  refine ⟨s, s', ?_, hpdu, hs'⟩
  rw [← hheader]
  simp

theorem mask_toNat (v : UInt16) : mask v.toNat = v := by
  have hlt : v.toNat < 65536 := v.toNat_lt
  have hmod : ((v.toNat : ℤ) % 65536).toNat = v.toNat := by omega
  rw [mask, hmod, UInt16.ofNat_toNat]

/-! ### Transactions -/

namespace Session

/-- Nothing is on its way. -/
structure Quiet (s : Session) : Prop where
  atServer : content s.atServer = []
  atClient : content s.atClient = []

end Session

theorem handle_of_content {server server' : ModbusTcpServer} {stream : Segments UInt8}
    {tx : UInt16} {unit : UInt8} {pdu answer : List UInt8}
    (hstream : content stream =
      beBytes 2 tx.toNat ++ beBytes 2 0 ++ beBytes 2 (pdu.length + 1) ++ [unit] ++ pdu)
    (hpdu : pdu.length + 1 < 65536) (hanswer : answer.length + 1 < 65536)
    (h : server.dispatch pdu = .ok (answer, server')) :
    ∃ rest, server.handle stream = some
      (beBytes 2 tx.toNat ++ beBytes 2 0 ++ beBytes 2 (answer.length + 1) ++ [unit] ++ answer,
        server', rest) ∧ content rest = [] := by
  obtain ⟨s, s', hheader, hbody, hs'⟩ := recv_frame (hstream.trans (List.append_nil _).symm)
  refine ⟨s', ?_, hs'⟩
  rw [ModbusTcpServer.handle, hheader, Option.bind_eq_bind, Option.bind_some]
  dsimp only
  rw [unpackHeader_eq tx hpdu, if_neg (Nat.succ_ne_zero _), Nat.add_sub_cancel, hbody,
    Option.bind_some]
  dsimp only
  rw [h]
  dsimp only
  rw [mbap_of_lt tx unit hanswer]

/-- A request that the server answers comes back as its answer. -/
theorem txn_eq (net : Arrivals) {s : Session} (hquiet : s.Quiet) {pdu answer : List UInt8}
    {server : ModbusTcpServer} (h : s.server.dispatch pdu = .ok (answer, server))
    (hpdu : pdu.length + 1 < 65536) (hanswer : answer.length + 1 < 65536)
    (hgood : ∀ fc ∈ answer.head?, fc &&& 0x80 = 0) :
    ∃ s', txn net s pdu = .ok (answer, s') ∧ s'.server = server ∧ s'.Quiet := by
  have hrequest (bs : List UInt8) : content (s.atServer ++ net.toServer s.sent bs) = bs := by
    rw [content_append, hquiet.atServer, net.content_toServer, List.nil_append]
  have hback (bs : List UInt8) : content (s.atClient ++ net.toClient s.sent bs) = bs ++ [] := by
    rw [content_append, hquiet.atClient, net.content_toClient, List.nil_append, List.append_nil]
  obtain ⟨atServer, hhandle, hserver⟩ :=
    handle_of_content (hrequest (beBytes 2 (s.tx + 1).toNat ++ _ ++ _ ++ [s.unit] ++ _)) hpdu
      hanswer h
  obtain ⟨stream, atClient, hheader, hbody, hclient⟩ :=
    recv_frame (hback (beBytes 2 (s.tx + 1).toNat ++ beBytes 2 0 ++
      beBytes 2 (answer.length + 1) ++ [s.unit] ++ answer))
  refine ⟨{ s with tx := s.tx + 1, server, sent := s.sent + 1, atServer, atClient }, ?_, rfl,
    hserver, hclient⟩
  rw [txn, mbap_of_lt _ _ hpdu]
  simp only [Except.bind, Bind.bind]
  rw [hhandle]
  dsimp only
  rw [hheader]
  dsimp only
  rw [unpackHeader_eq _ hanswer]
  dsimp only
  rw [if_neg (Nat.succ_ne_zero _), Nat.add_sub_cancel, hbody]
  dsimp only
  rw [if_neg (not_not.mpr rfl)]
  cases answer with
  | nil => rfl
  | cons fc rest =>
      dsimp only
      rw [if_neg (not_not.mpr (hgood fc rfl))]

/-! ### Registers -/

namespace Registers

theorem setFrom_append (registers : Registers) (address : ℕ) (values more : List UInt16) :
    registers.setFrom address (values ++ more) =
      (registers.setFrom address values).setFrom (address + values.length) more := by
  induction values generalizing registers address with
  | nil => rfl
  | cons v values ih =>
      rw [List.cons_append, setFrom, ih, setFrom, List.length_cons]
      congr 1
      omega

/-- What stands at an address after the loop. -/
theorem setFrom_apply (registers : Registers) (address : ℕ) (values : List UInt16) (a : ℕ) :
    registers.setFrom address values a =
      if address ≤ a then (values[a - address]?).or (registers a) else registers a := by
  induction values generalizing registers address with
  | nil => simp [setFrom]
  | cons v values ih =>
      rw [setFrom, ih]
      rcases Nat.lt_trichotomy a address with hlt | rfl | hgt
      · rw [if_neg (by omega), if_neg (by omega), Function.update_of_ne hlt.ne]
      · rw [if_neg (by omega), if_pos le_rfl, Function.update_self, Nat.sub_self]
        rfl
      · obtain ⟨k, rfl⟩ := Nat.exists_eq_add_of_lt hgt
        rw [if_pos (by omega), if_pos hgt.le, Function.update_of_ne hgt.ne',
          show address + k + 1 - address = k + 1 by omega,
          show address + k + 1 - (address + 1) = k by omega, List.getElem?_cons_succ]

end Registers

namespace ModbusTcpServer

theorem dispatch_read (server : ModbusTcpServer) {start qty : ℕ} (hstart : start < 65536)
    (hqty : qty ≤ 125) :
    server.dispatch (0x03 :: beBytes 2 start ++ beBytes 2 qty) =
      .ok (0x03 :: UInt8.ofNat (qty * 2) :: packWords (server.refresh.block start qty),
        server.refresh) := by
  have hargs : ((0x03 :: beBytes 2 start ++ beBytes 2 qty).drop 1).take 4 =
      beBytes 2 start ++ beBytes 2 qty :=
    List.take_of_length_le (by simp)
  rw [List.cons_append, dispatch, if_pos rfl, ← List.cons_append, hargs,
    unpackPair_beBytes hstart (by omega)]
  change (packB (qty * 2) >>= _) = _
  rw [packB_of_lt (by omega)]
  rfl

theorem dispatch_write (server : ModbusTcpServer) {start : ℕ} (hstart : start < 65536)
    {values : List UInt16} (hlength : values.length ≤ 123) :
    server.dispatch (0x10 :: beBytes 2 start ++ beBytes 2 values.length ++
        [UInt8.ofNat (values.length * 2)] ++ packWords values) =
      .ok (0x10 :: beBytes 2 start ++ beBytes 2 values.length, server.store start values) := by
  have hlist : (0x10 :: beBytes 2 start ++ beBytes 2 values.length ++
      [UInt8.ofNat (values.length * 2)] ++ packWords values : List UInt8) =
        0x10 :: ((beBytes 2 start ++ beBytes 2 values.length) ++
          (UInt8.ofNat (values.length * 2) :: packWords values)) := by
    simp
  have hargs : ((beBytes 2 start ++ beBytes 2 values.length) ++
      (UInt8.ofNat (values.length * 2) :: packWords values)).take 4 =
        beBytes 2 start ++ beBytes 2 values.length :=
    List.take_left' (by simp)
  have hdata : ((beBytes 2 start ++ beBytes 2 values.length) ++
      (UInt8.ofNat (values.length * 2) :: packWords values)).drop (4 + 1) = packWords values := by
    rw [← List.drop_drop, List.drop_left' (by simp)]
    rfl
  rw [hlist, dispatch, if_neg (by decide), if_pos rfl, List.drop_succ_cons, List.drop_zero, hargs,
    unpackPair_beBytes hstart (by omega)]
  change (unpackWords values.length _ >>= _) = _
  rw [List.drop_succ_cons, hdata, List.take_of_length_le (by rw [length_packWords]; omega),
    unpackWords_packWords]
  rfl

theorem refresh_of_none {server : ModbusTcpServer} (h : server.onRead = none) :
    server.refresh = server := by
  rw [refresh, h]

theorem store_of_none {server : ModbusTcpServer} (h : server.onWrite = none) (start : ℕ)
    (values : List UInt16) : server.store start values =
      { server with registers := server.registers.setFrom start values } := by
  obtain ⟨registers, onRead, onWrite⟩ := server
  subst h
  rfl

theorem length_block (server : ModbusTcpServer) (start qty : ℕ) :
    (server.block start qty).length = qty := by
  rw [block, List.length_map, List.length_range]

theorem block_add (server : ModbusTcpServer) (start m n : ℕ) :
    server.block start (m + n) = server.block start m ++ server.block (start + m) n := by
  rw [block, List.range_add, List.map_append, List.map_map]
  congr 1
  refine List.map_congr_left fun i _ => ?_
  rw [Function.comp_apply, Nat.add_assoc]

end ModbusTcpServer

/-! ### Calls -/

section Calls

variable (net : Arrivals) {s : Session}

theorem readHolding_eq (hquiet : s.Quiet) (hread : s.server.onRead = none) {start count : ℕ}
    (h : start + count ≤ 65536) :
    ∃ s', readHolding net start count s = .ok (s.server.block start count, s') ∧
      s'.server = s.server ∧ s'.Quiet := by
  induction count using Nat.strongRecOn generalizing start s with
  | ind count ih =>
      rw [readHolding]
      by_cases hcount : count = 0
      · subst hcount
        exact ⟨s, dif_pos rfl, rfl, hquiet⟩
      · have hsplit : min count 125 + (count - min count 125) = count := by omega
        generalize hn : min count 125 = n at hsplit ⊢
        have hqty : n ≤ 125 := hn ▸ Nat.min_le_right _ _
        have hbytes : (UInt8.ofNat (n * 2)).toNat = n * 2 := by
          rw [UInt8.toNat_ofNat', Nat.mod_eq_of_lt (by omega)]
        have hstart : start < 65536 := by omega
        have hnext : start + n + (count - n) ≤ 65536 := by omega
        have hanswer := s.server.dispatch_read hstart hqty
        rw [ModbusTcpServer.refresh_of_none hread] at hanswer
        obtain ⟨s₁, htxn, hserver, hquiet₁⟩ := txn_eq net hquiet hanswer (by simp)
          (by simp only [List.length_cons, length_packWords, ModbusTcpServer.length_block]; omega)
          (by rintro fc ⟨⟩; decide)
        obtain ⟨s₂, hrest, hserver₂, hquiet₂⟩ := ih (count - n) (by omega) hquiet₁
          (hserver ▸ hread) hnext
        refine ⟨s₂, ?_, hserver₂.trans hserver, hquiet₂⟩
        have hregs : unpackWords (n * 2 / 2) ((packWords (s.server.block start n)).take (n * 2)) =
            .ok (s.server.block start n) := by
          have hlength := s.server.length_block start n
          have hunpack := unpackWords_packWords (s.server.block start n)
          rw [hlength] at hunpack
          rw [List.take_of_length_le (by rw [length_packWords]; omega),
            Nat.mul_div_cancel _ two_pos, hunpack]
        rw [dif_neg hcount, packH_of_lt (by omega)]
        change (txn net s (0x03 :: beBytes 2 start ++ beBytes 2 n) >>= _) = _
        rw [htxn]
        change (unpackWords ((UInt8.ofNat (n * 2)).toNat / 2) (List.take _ _) >>= _) = _
        rw [hbytes, hregs]
        change (readHolding net (start + n) (count - n) s₁ >>= _) = _
        rw [hrest, hserver]
        conv_rhs => rw [← hsplit, ModbusTcpServer.block_add]
        rfl

theorem writeRegisters_eq (hquiet : s.Quiet) (hwrite : s.server.onWrite = none) {start : ℕ}
    {values : List ℤ} (h : start + values.length ≤ 65536) :
    ∃ s', writeRegisters net start values s = .ok s' ∧
      s'.server = { s.server with
        registers := s.server.registers.setFrom start (values.map mask) } ∧ s'.Quiet := by
  induction hlength : values.length using Nat.strongRecOn generalizing start values s with
  | ind length ih =>
      rw [writeRegisters]
      by_cases hvalues : values = []
      · subst hvalues
        exact ⟨s, dif_pos rfl, rfl, hquiet⟩
      · have hpos := List.length_pos_of_ne_nil hvalues
        have hn : (values.take 123).length ≤ 123 := List.length_take_le ..
        have hchunk : ((values.take 123).map mask).length = (values.take 123).length :=
          List.length_map _
        have hstart : start < 65536 := by omega
        have hmasked : ((values.take 123).map mask).length ≤ 123 := hchunk.trans_le hn
        have hnext : start + (values.take 123).length + (values.drop 123).length ≤ 65536 := by
          rw [List.length_drop, List.length_take]
          omega
        have hanswer := s.server.dispatch_write hstart hmasked
        rw [ModbusTcpServer.store_of_none hwrite, hchunk] at hanswer
        obtain ⟨s₁, htxn, hserver, hquiet₁⟩ := txn_eq net hquiet hanswer
          (by simp only [List.length_append, List.length_cons, List.length_nil, length_beBytes,
                length_packWords, hchunk]; omega)
          (by simp) (by rintro fc ⟨⟩; decide)
        obtain ⟨s₂, hrest, hserver₂, hquiet₂⟩ := ih (values.drop 123).length
          (by rw [List.length_drop]; omega) hquiet₁ (by rw [hserver]; exact hwrite) hnext rfl
        refine ⟨s₂, ?_, ?_, hquiet₂⟩
        · rw [dif_neg hvalues, packH_of_lt (by omega)]
          change (txn net s (0x10 :: beBytes 2 start ++ beBytes 2 _ ++ _ ++ _) >>= _) = _
          rw [htxn]
          exact hrest
        · have hjoin := Registers.setFrom_append s.server.registers start
            ((values.take 123).map mask) ((values.drop 123).map mask)
          rw [← List.map_append, List.take_append_drop, hchunk] at hjoin
          rw [hserver₂, hserver, hjoin]

end Calls

/-- Nothing is on its way, and the server has these registers and no hooks. -/
structure Session.Idle (s : Session) (registers : Registers) : Prop where
  server : s.server = { registers }
  quiet : s.Quiet

/-- A client that has just connected. -/
theorem idle_connected (registers : Registers) (unit : UInt8) :
    Session.Idle { server := { registers }, unit } registers :=
  ⟨rfl, rfl, rfl⟩

theorem registers_read (net : Arrivals) {s : Session} {registers : Registers}
    (h : s.Idle registers) (start count : ℕ) (hcount : start + count ≤ 65536) :
    ∃ s', readHolding net start count s =
        .ok ((List.range count).map fun i => registers.get (start + i), s') ∧
      s'.Idle registers := by
  obtain ⟨s', hs, hserver, hquiet⟩ := readHolding_eq net h.quiet (by rw [h.server]) hcount
  refine ⟨s', ?_, hserver.trans h.server, hquiet⟩
  rw [hs, h.server]
  rfl

theorem registers_write (net : Arrivals) {s : Session} {registers : Registers}
    (h : s.Idle registers) (start : ℕ) (values : List ℤ) (hvalues : start + values.length ≤ 65536) :
    ∃ s', writeRegisters net start values s = .ok s' ∧
      s'.Idle (registers.setFrom start (values.map mask)) := by
  obtain ⟨s', hs, hserver, hquiet⟩ := writeRegisters_eq net h.quiet (by rw [h.server]) hvalues
  rw [h.server] at hserver
  exact ⟨s', hs, hserver, hquiet⟩

/-- **Calls of any size.** Over any segmentation of the two streams, a client reads
exactly the registers it asks for, in order, and leaves them as they are; what it
writes stands, modulo 2^16, where it is to be, and nothing else has changed. -/
theorem registers_through (net : Arrivals) {s : Session} {registers : Registers}
    (h : s.Idle registers) :
    (∀ start count, start + count ≤ 65536 →
      ∃ s', readHolding net start count s =
          .ok ((List.range count).map fun i => registers.get (start + i), s') ∧
        s'.Idle registers) ∧
    ∀ (start : ℕ) (values : List ℤ), start + values.length ≤ 65536 →
      ∃ s' registers', writeRegisters net start values s = .ok s' ∧ s'.Idle registers' ∧
        (∀ i v, values[i]? = some v →
          (registers' (start + i)).map UInt16.toNat = some (v % 65536).toNat) ∧
        ∀ a, (a < start ∨ start + values.length ≤ a) → registers' a = registers a := by
  refine ⟨registers_read net h, fun start values hvalues => ?_⟩
  obtain ⟨s', hs, hidle⟩ := registers_write net h start values hvalues
  refine ⟨s', registers.setFrom start (values.map mask), hs, hidle, fun i v hv => ?_,
    fun a ha => ?_⟩
  · have hlt : (v % 65536).toNat < 65536 := by omega
    rw [Registers.setFrom_apply, if_pos (Nat.le_add_right ..), Nat.add_sub_cancel_left,
      List.getElem?_map, hv]
    simp [mask, UInt16.toNat_ofNat', Nat.mod_eq_of_lt hlt]
  · rw [Registers.setFrom_apply]
    split
    · rw [List.getElem?_eq_none (by rw [List.length_map]; omega), Option.none_or]
    · rfl

/-- Requests and answers that arrive byte by byte. -/
def bytewise : Arrivals where
  toServer _ bs := cut (List.replicate bs.length 0) bs
  toClient _ bs := cut (List.replicate bs.length 0) bs
  content_toServer _ _ := content_cut _ _
  content_toClient _ _ := content_cut _ _

/-- The last 126 registers, in two requests. -/
theorem registers_through_bytewise :
    ∃ s, readHolding bytewise 65410 126 { server := { registers := fun a => UInt16.ofNat a } } =
      .ok ((List.range 126).map fun i => UInt16.ofNat (65410 + i), s) := by
  obtain ⟨s, hs, -⟩ := (registers_through bytewise
    (idle_connected (fun a => UInt16.ofNat a) 1)).1 65410 126 (by decide)
  exact ⟨s, hs⟩

end DiepLab.Sunspec
