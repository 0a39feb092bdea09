import ClusterKeeper.Encoding.Base64

/-!
The base64 text of bytes decodes to them, and no other text does.
-/

namespace ClusterKeeper

theorem exists_of_bind_eq_ok {ε α β : Type} {x : Except ε α} {f : α → Except ε β} {b : β}
    (h : x >>= f = .ok b) : ∃ a, x = .ok a ∧ f a = .ok b := by
  cases x with
  | error e => cases h
  | ok a => exact ⟨a, rfl, h⟩

theorem toList_eq_toList_data (bytes : ByteArray) : bytes.toList = bytes.data.toList := by
  have loop (n i : Nat) (r : List UInt8) (h : bytes.size - i = n) :
      ByteArray.toList.loop bytes i r = r.reverse ++ bytes.data.toList.drop i := by
    induction n generalizing i r with
    | zero =>
        have hi : bytes.data.toList.length ≤ i := by
          rw [Array.length_toList, ByteArray.size_data]
          omega
        rw [ByteArray.toList.loop, if_neg (by omega), List.drop_of_length_le hi, List.append_nil]
    | succ n ih =>
        have hi : i < bytes.data.toList.length := by
          rw [Array.length_toList, ByteArray.size_data]
          omega
        have hget : bytes.get! i = bytes.data.toList[i] := by
          have hsize : i < bytes.size := by omega
          simp [ByteArray.get!, hsize]
        rw [ByteArray.toList.loop, if_pos (by omega), ih (i + 1) _ (by omega),
          List.drop_eq_getElem_cons hi, hget, List.reverse_cons, List.append_assoc]
        rfl
  exact loop _ 0 [] rfl

theorem eq_of_toList_toUTF8 {s t : String} (h : s.toUTF8.toList = t.toUTF8.toList) : s = t := by
  rw [toList_eq_toList_data, toList_eq_toList_data, Array.toList_inj] at h
  exact String.toByteArray_inj.mp (ByteArray.ext h)

theorem toList_toUTF8_ofList_ascii {bytes : List UInt8} (h : ∀ byte ∈ bytes, byte.toNat < 128) :
    (String.ofList (bytes.map fun byte => Char.ofNat byte.toNat)).toUTF8.toList = bytes := by
  have ascii : ∀ n ∈ List.range 128, String.utf8EncodeChar (Char.ofNat n) = [UInt8.ofNat n] := by
    decide +kernel
  have hbytes : (bytes.map fun byte => Char.ofNat byte.toNat).flatMap String.utf8EncodeChar =
      bytes := by
    induction bytes with
    | nil => rfl
    | cons byte rest ih =>
        rw [List.forall_mem_cons] at h
        rw [List.map_cons, List.flatMap_cons, ih h.2, ascii _ (List.mem_range.mpr h.1),
          UInt8.ofNat_toNat]
        rfl
  rw [toList_eq_toList_data, String.toUTF8_eq_toByteArray, String.toByteArray_ofList,
    List.utf8Encode, List.data_toByteArray, hbytes]

namespace Base64

theorem value?_symbol {n : Nat} (h : n < 64) : value? (symbol n) = some n := by
  have all : ∀ n ∈ List.range 64, value? (symbol n) = some n := by decide +kernel
  exact all n (List.mem_range.mpr h)

theorem symbol_ne_pad {n : Nat} (h : n < 64) : symbol n ≠ pad := by
  intro heq
  have hvalue := value?_symbol h
  rw [heq] at hvalue
  cases hvalue

theorem valueAt_symbol {n : Nat} (h : n < 64) (offset : Nat) :
    valueAt (symbol n) offset = .ok n := by
  rw [valueAt, value?_symbol h]

theorem scanLast_symbol (start i : Nat) {n : Nat} (h : n < 64) (rest : List UInt8) :
    scanLast start i none (symbol n :: rest) =
      (scanLast start (i + 1) none rest).map (n :: ·) := by
  rw [scanLast, if_neg (symbol_ne_pad h), valueAt_symbol h]
  cases hrest : scanLast start (i + 1) none rest <;> rfl

theorem length_encodeBytes_mod (bytes : List UInt8) : (encodeBytes bytes).length % 4 = 0 := by
  induction bytes using encodeBytes.induct with
  | case1 => rfl
  | case2 a => simp [encodeBytes]
  | case3 a b => simp [encodeBytes]
  | case4 a b c rest ih =>
      rw [encodeBytes]
      simp only [List.length_cons]
      omega

theorem bytes_of_group (a b c : UInt8) :
    let n := a.toNat * 65536 + b.toNat * 256 + c.toNat
    UInt8.ofNat (n / 262144 * 4 + n / 4096 % 64 / 16) = a ∧
      UInt8.ofNat (n / 4096 % 64 % 16 * 16 + n / 64 % 64 / 4) = b ∧
      UInt8.ofNat (n / 64 % 64 % 4 * 64 + n % 64) = c := by
  have ha := a.toNat_lt
  have hb := b.toNat_lt
  have hc := c.toNat_lt
  intro n
  refine ⟨?_, ?_, ?_⟩
  · rw [show n / 262144 * 4 + n / 4096 % 64 / 16 = a.toNat by omega, UInt8.ofNat_toNat]
  · rw [show n / 4096 % 64 % 16 * 16 + n / 64 % 64 / 4 = b.toNat by omega, UInt8.ofNat_toNat]
  · rw [show n / 64 % 64 % 4 * 64 + n % 64 = c.toNat by omega, UInt8.ofNat_toNat]

/-! The last group, by the number of its bytes. -/

theorem decodeGroups_one (a : UInt8) (start : Nat) :
    decodeGroups start (encodeBytes [a]) = .ok [a] := by
  have ha := a.toNat_lt
  have hvalue : UInt8.ofNat (a.toNat * 16 / 64 * 4 + a.toNat * 16 % 64 / 16) = a := by
    rw [show a.toNat * 16 / 64 * 4 + a.toNat * 16 % 64 / 16 = a.toNat by omega, UInt8.ofNat_toNat]
  have hzero : a.toNat * 16 % 64 % 16 = 0 := by omega
  have hscan : scanLast start 0 none (encodeBytes [a]) =
      .ok [a.toNat * 16 / 64, a.toNat * 16 % 64] := by
    rw [encodeBytes, scanLast_symbol _ _ (by omega), scanLast_symbol _ _ (by omega)]
    rfl
  rw [encodeBytes] at hscan ⊢
  rw [decodeGroups, decodeLast, hscan]
  · simp [bind, Except.bind, pure, Except.pure, hzero, hvalue]
  · simp

theorem decodeGroups_two (a b : UInt8) (start : Nat) :
    decodeGroups start (encodeBytes [a, b]) = .ok [a, b] := by
  have ha := a.toNat_lt
  have hb := b.toNat_lt
  generalize hn : (a.toNat * 256 + b.toNat) * 4 = n
  have hfirst : UInt8.ofNat (n / 4096 * 4 + n / 64 % 64 / 16) = a := by
    rw [show n / 4096 * 4 + n / 64 % 64 / 16 = a.toNat by omega, UInt8.ofNat_toNat]
  have hsecond : UInt8.ofNat (n / 64 % 64 % 16 * 16 + n % 64 / 4) = b := by
    rw [show n / 64 % 64 % 16 * 16 + n % 64 / 4 = b.toNat by omega, UInt8.ofNat_toNat]
  have hzero : n % 64 % 4 = 0 := by omega
  have hscan : scanLast start 0 none (encodeBytes [a, b]) =
      .ok [n / 4096, n / 64 % 64, n % 64] := by
    rw [encodeBytes, hn, scanLast_symbol _ _ (by omega), scanLast_symbol _ _ (by omega),
      scanLast_symbol _ _ (by omega)]
    rfl
  rw [encodeBytes, hn] at hscan ⊢
  rw [decodeGroups, decodeLast, hscan]
  · simp only [bind, Except.bind, pure, Except.pure, hzero, hfirst, hsecond]
    rfl
  · simp

theorem decodeGroups_three (a b c : UInt8) (start : Nat) :
    decodeGroups start (encodeBytes [a, b, c]) = .ok [a, b, c] := by
  have ha := a.toNat_lt
  have hb := b.toNat_lt
  have hc := c.toNat_lt
  obtain ⟨hfirst, hsecond, hthird⟩ := bytes_of_group a b c
  generalize hn : a.toNat * 65536 + b.toNat * 256 + c.toNat = n at hfirst hsecond hthird
  have hscan : scanLast start 0 none (encodeBytes [a, b, c]) =
      .ok [n / 262144, n / 4096 % 64, n / 64 % 64, n % 64] := by
    rw [encodeBytes, hn, scanLast_symbol _ _ (by omega), scanLast_symbol _ _ (by omega),
      scanLast_symbol _ _ (by omega), scanLast_symbol _ _ (by omega)]
    rfl
  rw [encodeBytes, hn, encodeBytes] at hscan ⊢
  rw [decodeGroups, decodeLast, hscan]
  · simp only [bind, Except.bind, pure, Except.pure, hfirst, hsecond, hthird]
    rfl
  · simp

theorem decodeGroups_encodeBytes (bytes : List UInt8) (start : Nat) :
    decodeGroups start (encodeBytes bytes) = .ok bytes := by
  induction bytes using encodeBytes.induct generalizing start with
  | case1 => rfl
  | case2 a => exact decodeGroups_one a start
  | case3 a b => exact decodeGroups_two a b start
  | case4 a b c rest ih =>
      cases hrest : encodeBytes rest with
      | nil =>
          -- the text of the rest is empty, and so is what it decodes to
          have hempty := ih 0
          rw [hrest] at hempty
          cases Except.ok.inj hempty
          exact decodeGroups_three a b c start
      | cons e others =>
          have ha := a.toNat_lt
          have hb := b.toNat_lt
          have hc := c.toNat_lt
          obtain ⟨hfirst, hsecond, hthird⟩ := bytes_of_group a b c
          rw [encodeBytes, hrest, decodeGroups, valueAt_symbol (by omega),
            valueAt_symbol (by omega), valueAt_symbol (by omega), valueAt_symbol (by omega),
            ← hrest, ih]
          simp only [bind, Except.bind, pure, Except.pure, hfirst, hsecond, hthird]

theorem decodeBytes_encodeBytes (bytes : List UInt8) :
    decodeBytes (encodeBytes bytes) = .ok bytes := by
  rw [decodeBytes, strayByte?, if_neg, decodeGroups_encodeBytes]
  rw [length_encodeBytes_mod]
  decide

theorem mem_encodeBytes {bytes : List UInt8} {byte : UInt8} (h : byte ∈ encodeBytes bytes) :
    byte = pad ∨ ∃ n < 64, byte = symbol n := by
  induction bytes using encodeBytes.induct with
  | case1 => cases h
  | case2 a =>
      have ha := a.toNat_lt
      simp only [encodeBytes, List.mem_cons, List.not_mem_nil, or_false] at h
      rcases h with h | h | h | h
      · exact .inr ⟨_, by omega, h⟩
      · exact .inr ⟨_, by omega, h⟩
      · exact .inl h
      · exact .inl h
  | case3 a b =>
      have ha := a.toNat_lt
      have hb := b.toNat_lt
      simp only [encodeBytes, List.mem_cons, List.not_mem_nil, or_false] at h
      rcases h with h | h | h | h
      · exact .inr ⟨_, by omega, h⟩
      · exact .inr ⟨_, by omega, h⟩
      · exact .inr ⟨_, by omega, h⟩
      · exact .inl h
  | case4 a b c rest ih =>
      have ha := a.toNat_lt
      have hb := b.toNat_lt
      have hc := c.toNat_lt
      simp only [encodeBytes, List.mem_cons] at h
      rcases h with h | h | h | h | h
      · exact .inr ⟨_, by omega, h⟩
      · exact .inr ⟨_, by omega, h⟩
      · exact .inr ⟨_, by omega, h⟩
      · exact .inr ⟨_, by omega, h⟩
      · exact ih h

theorem forall_mem_encodeBytes {p : UInt8 → Bool} (hpad : p pad = true)
    (hsymbol : ∀ n ∈ List.range 64, p (symbol n) = true) (bytes : List UInt8) :
    ∀ byte ∈ encodeBytes bytes, p byte = true := by
  intro byte hbyte
  rcases mem_encodeBytes hbyte with rfl | ⟨n, hn, rfl⟩
  · exact hpad
  · exact hsymbol n (List.mem_range.mpr hn)

theorem toList_toUTF8_encode (bytes : List UInt8) :
    (encode bytes).toUTF8.toList = encodeBytes bytes := by
  have hascii : ∀ byte ∈ encodeBytes bytes, decide (byte.toNat < 128) = true :=
    forall_mem_encodeBytes (p := fun byte => decide (byte.toNat < 128)) (by decide)
      (by decide +kernel) bytes
  exact toList_toUTF8_ofList_ascii fun byte hbyte => of_decide_eq_true (hascii byte hbyte)

@[simp] theorem decode_encode (bytes : List UInt8) : decode (encode bytes) = .ok bytes := by
  rw [decode, toList_toUTF8_encode, decodeBytes_encodeBytes]

theorem encode_injective : Function.Injective encode := by
  intro left right heq
  have hdecode := decode_encode left
  rw [heq, decode_encode] at hdecode
  exact (Except.ok.inj hdecode).symm

/-! Back from the bytes to the text. -/

theorem eq_symbol_of_value? {byte : UInt8} {n : Nat} (h : value? byte = some n) :
    n < 64 ∧ byte = symbol n := by
  have all : ∀ b ∈ List.range 256, (value? (UInt8.ofNat b)).all fun n =>
      decide (n < 64 ∧ UInt8.ofNat b = symbol n) := by decide +kernel
  have hbyte := all byte.toNat (List.mem_range.mpr byte.toNat_lt)
  rw [UInt8.ofNat_toNat, h] at hbyte
  exact of_decide_eq_true hbyte

theorem eq_symbol_of_valueAt {byte : UInt8} {offset n : Nat} (h : valueAt byte offset = .ok n) :
    n < 64 ∧ byte = symbol n := by
  rw [valueAt] at h
  split at h
  · next value hvalue =>
      cases h
      exact eq_symbol_of_value? hvalue
  · cases h

/-- A last group that can be read is its symbols, and then padding. -/
theorem eq_of_scanLast {start i : Nat} {padAt : Option Nat} {text : List UInt8}
    {values : List Nat} (h : scanLast start i padAt text = .ok values) :
    (∀ n ∈ values, n < 64) ∧ (padAt.isSome → values = []) ∧
      ∃ pads, text = values.map symbol ++ List.replicate pads pad := by
  induction text generalizing i padAt values with
  | nil =>
      cases h
      exact ⟨nofun, fun _ => rfl, 0, rfl⟩
  | cons byte rest ih =>
      unfold scanLast at h
      split at h
      · next hpad =>
          split at h
          · cases h
          · obtain ⟨-, hvalues, pads, hrest⟩ := ih h
            cases hvalues rfl
            refine ⟨nofun, fun _ => rfl, pads + 1, ?_⟩
            rw [hrest, hpad, List.replicate_succ]
            rfl
      · cases padAt with
        | some offset => cases h
        | none =>
            obtain ⟨n, hbyte, h⟩ := exists_of_bind_eq_ok h
            obtain ⟨others, hscan, h⟩ := exists_of_bind_eq_ok h
            cases h
            obtain ⟨hn, hsymbol⟩ := eq_symbol_of_valueAt hbyte
            obtain ⟨hothers, -, pads, hrest⟩ := ih hscan
            refine ⟨List.forall_mem_cons.mpr ⟨hn, hothers⟩, nofun, pads, ?_⟩
            rw [hrest, hsymbol]
            rfl

theorem encodeBytes_one {a b : Nat} (ha : a < 64) (hb : b < 64) (hzero : b % 16 = 0) :
    encodeBytes [UInt8.ofNat (a * 4 + b / 16)] = [symbol a, symbol b, pad, pad] := by
  have hbyte : (UInt8.ofNat (a * 4 + b / 16)).toNat = a * 4 + b / 16 :=
    UInt8.toNat_ofNat_of_lt' (show _ < 256 by omega)
  simp only [encodeBytes, hbyte]
  rw [show (a * 4 + b / 16) * 16 / 64 = a by omega, show (a * 4 + b / 16) * 16 % 64 = b by omega]

theorem encodeBytes_two {a b c : Nat} (ha : a < 64) (hb : b < 64) (hc : c < 64)
    (hzero : c % 4 = 0) :
    encodeBytes [UInt8.ofNat (a * 4 + b / 16), UInt8.ofNat (b % 16 * 16 + c / 4)] =
      [symbol a, symbol b, symbol c, pad] := by
  have hfirst : (UInt8.ofNat (a * 4 + b / 16)).toNat = a * 4 + b / 16 :=
    UInt8.toNat_ofNat_of_lt' (show _ < 256 by omega)
  have hsecond : (UInt8.ofNat (b % 16 * 16 + c / 4)).toNat = b % 16 * 16 + c / 4 :=
    UInt8.toNat_ofNat_of_lt' (show _ < 256 by omega)
  simp only [encodeBytes, hfirst, hsecond]
  generalize hn : ((a * 4 + b / 16) * 256 + (b % 16 * 16 + c / 4)) * 4 = n
  rw [show n / 4096 = a by omega, show n / 64 % 64 = b by omega, show n % 64 = c by omega]

theorem encodeBytes_group {a b c d : Nat} (ha : a < 64) (hb : b < 64) (hc : c < 64) (hd : d < 64)
    (rest : List UInt8) :
    encodeBytes (UInt8.ofNat (a * 4 + b / 16) :: UInt8.ofNat (b % 16 * 16 + c / 4) ::
        UInt8.ofNat (c % 4 * 64 + d) :: rest) =
      symbol a :: symbol b :: symbol c :: symbol d :: encodeBytes rest := by
  have hfirst : (UInt8.ofNat (a * 4 + b / 16)).toNat = a * 4 + b / 16 :=
    UInt8.toNat_ofNat_of_lt' (show _ < 256 by omega)
  have hsecond : (UInt8.ofNat (b % 16 * 16 + c / 4)).toNat = b % 16 * 16 + c / 4 :=
    UInt8.toNat_ofNat_of_lt' (show _ < 256 by omega)
  have hthird : (UInt8.ofNat (c % 4 * 64 + d)).toNat = c % 4 * 64 + d :=
    UInt8.toNat_ofNat_of_lt' (show _ < 256 by omega)
  simp only [encodeBytes, hfirst, hsecond, hthird]
  generalize hn : (a * 4 + b / 16) * 65536 + (b % 16 * 16 + c / 4) * 256 + (c % 4 * 64 + d) = n
  rw [show n / 262144 = a by omega, show n / 4096 % 64 = b by omega,
    show n / 64 % 64 = c by omega, show n % 64 = d by omega]

theorem eq_of_decodeLast {start : Nat} {group bytes : List UInt8}
    (h : decodeLast start group = .ok bytes) : group = encodeBytes bytes := by
  rw [decodeLast] at h
  by_cases hempty : group = []
  · rw [if_pos hempty] at h
    cases h
    exact hempty
  · rw [if_neg hempty] at h
    obtain ⟨values, hscan, hgroup⟩ := exists_of_bind_eq_ok h
    obtain ⟨hvalues, -, pads, rfl⟩ := eq_of_scanLast hscan
    simp only [bind, Except.bind, pure, Except.pure, throw, throwThe, MonadExceptOf.throw] at hgroup
    split at hgroup
    · cases hgroup
    · next hmany =>
    split at hgroup
    · cases hgroup
    · next hfour =>
    -- as many symbols as are read, and padding up to four
    simp only [ne_eq, Decidable.not_not, List.length_append, List.length_map,
      List.length_replicate] at hfour
    split at hgroup
    · next a b =>
        split at hgroup
        · cases hgroup
        · next hzero =>
            cases hgroup
            obtain rfl : pads = 2 := Nat.add_left_cancel (n := 2) hfour
            exact (encodeBytes_one (hvalues a (by simp)) (hvalues b (by simp))
              (Decidable.not_not.mp hzero)).symm
    · next a b c =>
        split at hgroup
        · cases hgroup
        · next hzero =>
            cases hgroup
            obtain rfl : pads = 1 := Nat.add_left_cancel (n := 3) hfour
            exact (encodeBytes_two (hvalues a (by simp)) (hvalues b (by simp))
              (hvalues c (by simp)) (Decidable.not_not.mp hzero)).symm
    · next a b c d =>
        cases hgroup
        obtain rfl : pads = 0 := Nat.add_left_cancel (n := 4) hfour
        exact (encodeBytes_group (hvalues a (by simp)) (hvalues b (by simp))
          (hvalues c (by simp)) (hvalues d (by simp)) []).symm
    · cases hgroup

theorem eq_of_decodeGroups {start : Nat} {text bytes : List UInt8}
    (h : decodeGroups start text = .ok bytes) : text = encodeBytes bytes := by
  induction start, text using decodeGroups.induct generalizing bytes with
  | case1 start a b c d e rest ih =>
      rw [decodeGroups] at h
      obtain ⟨first, ha, h⟩ := exists_of_bind_eq_ok h
      obtain ⟨second, hb, h⟩ := exists_of_bind_eq_ok h
      obtain ⟨third, hc, h⟩ := exists_of_bind_eq_ok h
      obtain ⟨fourth, hd, h⟩ := exists_of_bind_eq_ok h
      obtain ⟨others, hrest, h⟩ := exists_of_bind_eq_ok h
      cases h
      obtain ⟨hfirst, rfl⟩ := eq_symbol_of_valueAt ha
      obtain ⟨hsecond, rfl⟩ := eq_symbol_of_valueAt hb
      obtain ⟨hthird, rfl⟩ := eq_symbol_of_valueAt hc
      obtain ⟨hfourth, rfl⟩ := eq_symbol_of_valueAt hd
      rw [encodeBytes_group hfirst hsecond hthird hfourth, ← ih hrest]
  | case2 start text hshort =>
      rw [decodeGroups] at h
      · exact eq_of_decodeLast h
      · exact hshort

theorem decodeBytes_eq_ok_iff {text bytes : List UInt8} :
    decodeBytes text = .ok bytes ↔ text = encodeBytes bytes := by
  constructor
  · intro h
    rw [decodeBytes] at h
    split at h
    · cases h
    · exact eq_of_decodeGroups h
  · rintro rfl
    exact decodeBytes_encodeBytes bytes

/-- Bytes have one text: what decodes to them is their encoding. -/
theorem decode_eq_ok_iff {text : String} {bytes : List UInt8} :
    decode text = .ok bytes ↔ text = encode bytes := by
  rw [decode, decodeBytes_eq_ok_iff, ← toList_toUTF8_encode]
  exact ⟨eq_of_toList_toUTF8, fun h => congrArg (fun text => text.toUTF8.toList) h⟩

end Base64

end ClusterKeeper
