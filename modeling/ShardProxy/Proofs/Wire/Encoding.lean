import ShardProxy.Proofs.Wire.Messages

/-!
# Encoding

Writing a value and reading it back. Numbers have many spellings, so reading is no inverse of
writing on the bytes: what is written is the shortest of the units that derive the same value.

* `Value.Sendable` — the values that the wire can carry;
* `derives_encode` — the canonical bytes of such a value are a unit of the grammar, for that value;
* `sendable_of_derives`, `length_encode_le` — every unit is one for a value of this kind, and none
  is shorter than the canonical one;
* `Value.encode_inverse` — what follows for reading.
-/

namespace ShardProxy.Wire

/-- A bulk string that the wire can carry: null, or at most 512 MiB. -/
def Carried (data : Option Bytes) : Prop := ∀ d ∈ data, d.length ≤ 512 * 1024 * 1024

/-- A value that the wire can carry. An array holds bulk strings only. -/
inductive Value.Sendable : Value → Prop where
  | status {text} : cr ∉ text → Sendable (.status text)
  | error {text} : cr ∉ text → Sendable (.error text)
  | integer {n} : Sendable (.integer n)
  | bulk {data} : Carried data → Sendable (.bulk data)
  | nullArray : Sendable (.array none)
  | array {items : List (Option Bytes)} : items.length ≤ 1024 → (∀ data ∈ items, Carried data) →
      Sendable (.array (some (items.map .bulk)))

/-! ## Numbers -/

theorem digit_add {n : Nat} (h : n < 10) :
    Digit (48 + n.toUInt8) ∧ (48 + n.toUInt8).toNat - 48 = n := by
  interval_cases n <;> decide

theorem decimal_append (ds : Bytes) (d : UInt8) :
    decimal (ds ++ [d]) = 10 * decimal ds + (d.toNat - 48) := by
  simp only [decimal, List.reverse_append, List.reverse_cons, List.reverse_nil, List.nil_append,
    List.singleton_append, List.map_cons, Nat.ofDigits_cons]
  omega

theorem decimal_singleton (d : UInt8) : decimal [d] = d.toNat - 48 := by
  simp [decimal]

theorem digits_ne_nil (n : Nat) : digits n ≠ [] := by
  unfold digits
  split <;> simp

theorem digit_of_mem_digits {n : Nat} {d : UInt8} (h : d ∈ digits n) : Digit d := by
  induction n using digits.induct with
  | case1 n hlt =>
      rw [digits, if_pos hlt, List.mem_singleton] at h
      exact h ▸ (digit_add hlt).1
  | case2 n hge ih =>
      rw [digits, if_neg hge] at h
      rcases List.mem_append.mp h with hfront | hlast
      · exact ih hfront
      · rw [List.mem_singleton.mp hlast]
        exact (digit_add (Nat.mod_lt n (by omega))).1

/-- The digits of a number stand for it. -/
theorem decimal_digits (n : Nat) : decimal (digits n) = n := by
  induction n using digits.induct with
  | case1 n hlt =>
      rw [digits, if_pos hlt, decimal_singleton]
      exact (digit_add hlt).2
  | case2 n hge ih =>
      rw [digits, if_neg hge, decimal_append, ih, (digit_add (Nat.mod_lt n (by omega))).2]
      omega

theorem length_digits_le {n k : Nat} (hk : 0 < k) (hn : n < 10 ^ k) : (digits n).length ≤ k := by
  induction n using digits.induct generalizing k with
  | case1 n hlt =>
      rw [digits, if_pos hlt]
      exact hk
  | case2 n hge ih =>
      -- one digit less for a tenth of the number
      obtain ⟨k, rfl⟩ : ∃ j, k = j + 1 := ⟨k - 1, by omega⟩
      rw [pow_succ] at hn
      have hpos : 0 < k := by
        apply Nat.pos_of_ne_zero
        rintro rfl
        omega
      have hfront := ih hpos (by omega)
      rw [digits, if_neg hge, List.length_append, List.length_singleton]
      omega

theorem decimal_lt_pow {ds : Bytes} (h : ∀ d ∈ ds, Digit d) : decimal ds < 10 ^ ds.length := by
  have hlt := Nat.ofDigits_lt_base_pow_length (b := 10) (l := ds.reverse.map fun d => d.toNat - 48)
    (by omega) ?_
  · simpa [decimal] using hlt
  · intro x hx
    obtain ⟨d, hd, rfl⟩ := List.mem_map.mp hx
    have hdigit := h d (List.mem_reverse.mp hd)
    unfold Digit at hdigit
    omega

theorem spells_signed (n : Int) : Spells (signed n) n := by
  unfold signed
  split
  · rename_i hneg
    have hspells : Spells (minus :: digits n.natAbs) (-(decimal (digits n.natAbs) : Int)) :=
      .minus (digits_ne_nil _) fun d => digit_of_mem_digits
    rw [decimal_digits] at hspells
    rwa [show -(n.natAbs : Int) = n by omega] at hspells
  · rename_i hneg
    have hspells : Spells (digits n.natAbs) (decimal (digits n.natAbs) : Int) :=
      .unsigned (digits_ne_nil _) fun d => digit_of_mem_digits
    rw [decimal_digits] at hspells
    rwa [show (n.natAbs : Int) = n by omega] at hspells

/-- No spelling of a number is shorter than the canonical one. -/
theorem length_signed_le {text : Bytes} {n : Int} (h : Spells text n) :
    (signed n).length ≤ text.length := by
  have hdigits : ∀ {ds : Bytes}, ds ≠ [] → (∀ d ∈ ds, Digit d) →
      (digits (decimal ds)).length ≤ ds.length := by
    intro ds hne hds
    exact length_digits_le (List.length_pos_iff.mpr hne) (decimal_lt_pow hds)
  cases h with
  | unsigned hne hds =>
      -- leading zeros are what is saved
      have hlen := hdigits hne hds
      unfold signed
      rw [if_neg (by omega)]
      simpa using hlen
  | plus hne hds =>
      have hlen := hdigits hne hds
      unfold signed
      rw [if_neg (by omega)]
      simp only [Int.natAbs_natCast, List.length_cons]
      omega
  | minus hne hds =>
      -- the sign is left out where the digits are all zero
      have hlen := hdigits hne hds
      unfold signed
      split <;> simp only [Int.natAbs_neg, Int.natAbs_natCast, List.length_cons] <;> omega

theorem numberLine_signed (n : Int64) : NumberLine (signed n.toInt ++ crlf) n :=
  .mk (spells_signed _)

theorem length_numberLine_le {line : Bytes} {n : Int64} (h : NumberLine line n) :
    (signed n.toInt ++ crlf).length ≤ line.length := by
  obtain ⟨htext⟩ := h
  simpa using length_signed_le htext

/-! ## Values -/

theorem signed_natCast (n : Nat) : signed (n : Int) = digits n := by
  unfold signed
  rw [if_neg (by omega), Int.natAbs_natCast]

/-- Lengths are written as numbers are. -/
theorem exists_numberLine (len : Nat) (h : len < 2 ^ 63) :
    ∃ n : Int64, n.toInt = len ∧ NumberLine (digits len ++ crlf) n := by
  have hn : (Int64.ofNat len).toInt = len := Int64.toInt_ofNat_of_lt h
  refine ⟨Int64.ofNat len, hn, ?_⟩
  have hline := numberLine_signed (Int64.ofNat len)
  rwa [hn, signed_natCast] at hline

theorem bulkUnit_encode {data : Option Bytes} (h : Carried data) :
    BulkUnit (Value.bulk data).encode data := by
  cases data with
  | none =>
      simp only [Value.encode]
      exact .null (numberLine_signed (-1))
  | some data =>
      have hshort := h data rfl
      obtain ⟨n, hn, hline⟩ := exists_numberLine data.length (by omega)
      simp only [Value.encode, writeBulk]
      simpa using BulkUnit.data hline hn hshort

theorem bulks_encodeAll {items : List (Option Bytes)} (h : ∀ data ∈ items, Carried data) :
    Bulks (Value.encodeAll (items.map .bulk)) items := by
  induction items with
  | nil => exact .nil
  | cons item items ih =>
      have hrest := ih fun data hdata => h data (List.mem_cons_of_mem _ hdata)
      simp only [List.map_cons, Value.encodeAll]
      exact .cons (bulkUnit_encode (h item List.mem_cons_self)) hrest

/-- The canonical bytes of a value are a unit for it. -/
theorem derives_encode {v : Value} (h : v.Sendable) : Derives v.encode v := by
  cases h with
  | status htext =>
      simp only [Value.encode]
      exact .status htext
  | error htext =>
      simp only [Value.encode]
      exact .error htext
  | integer =>
      simp only [Value.encode, writeInteger]
      exact .integer (numberLine_signed _)
  | bulk hdata => exact .bulk (bulkUnit_encode hdata)
  | nullArray =>
      simp only [Value.encode]
      have hnull : ArrayUnit (star :: (signed (-1) ++ crlf)) none := .null (numberLine_signed (-1))
      exact .array hnull
  | @array items hcount hitems =>
      obtain ⟨n, hn, hline⟩ := exists_numberLine items.length (by omega)
      simp only [Value.encode, writeArrayHeader, List.length_map]
      have hunit := ArrayUnit.items hline hn hcount (bulks_encodeAll hitems)
      exact .array hunit

theorem carried_of_bulkUnit {part : Bytes} {data : Option Bytes} (h : BulkUnit part data) :
    Carried data := by
  cases h with
  | null => exact fun d hd => by cases hd
  | data _ _ hshort =>
      intro d hd
      cases hd
      exact hshort

theorem carried_of_bulks {part : Bytes} {items : List (Option Bytes)} (h : Bulks part items) :
    ∀ data ∈ items, Carried data := by
  induction h with
  | nil => exact fun data hdata => absurd hdata List.not_mem_nil
  | cons hitem _ ih =>
      intro data hdata
      rcases List.mem_cons.mp hdata with rfl | hrest
      · exact carried_of_bulkUnit hitem
      · exact ih data hrest

/-- The grammar derives nothing but what the wire can carry. -/
theorem sendable_of_derives {part : Bytes} {v : Value} (h : Derives part v) : v.Sendable := by
  cases h with
  | status htext => exact .status htext
  | error htext => exact .error htext
  | integer => exact .integer
  | bulk hitem => exact .bulk (carried_of_bulkUnit hitem)
  | array hitems =>
      cases hitems with
      | null => exact .nullArray
      | items _ _ hcount hbulks => exact .array hcount (carried_of_bulks hbulks)

theorem length_encode_bulk_le {part : Bytes} {data : Option Bytes} (h : BulkUnit part data) :
    (Value.bulk data).encode.length ≤ part.length := by
  cases h with
  | null hline =>
      have hlen := length_numberLine_le hline
      simp only [Value.encode, List.length_cons, List.cons_append]
      exact Nat.succ_le_succ hlen
  | data hline hn =>
      have hlen := length_numberLine_le hline
      rw [hn, signed_natCast] at hlen
      simp only [Value.encode, writeBulk, List.length_append, List.length_cons] at hlen ⊢
      omega

theorem length_encodeAll_le {part : Bytes} {items : List (Option Bytes)} (h : Bulks part items) :
    (Value.encodeAll (items.map .bulk)).length ≤ part.length := by
  induction h with
  | nil => exact Nat.le_refl _
  | cons hitem _ ih =>
      have hlen := length_encode_bulk_le hitem
      simp only [List.map_cons, Value.encodeAll, List.length_append]
      omega

/-- No unit is shorter than the canonical bytes of its value. -/
theorem length_encode_le {part : Bytes} {v : Value} (h : Derives part v) :
    v.encode.length ≤ part.length := by
  cases h with
  | status => simp [Value.encode]
  | error => simp [Value.encode]
  | integer hline =>
      have hlen := length_numberLine_le hline
      simp only [Value.encode, writeInteger, List.length_cons, List.cons_append]
      exact Nat.succ_le_succ hlen
  | bulk hitem => exact length_encode_bulk_le hitem
  | array hitems =>
      cases hitems with
      | null hline =>
          have hlen := length_numberLine_le hline
          simp only [Option.map_none, Value.encode, List.length_cons, List.cons_append]
          exact Nat.succ_le_succ hlen
      | items hline hn _ hbulks =>
          have hhead := length_numberLine_le hline
          have hrest := length_encodeAll_le hbulks
          rw [hn, signed_natCast] at hhead
          simp only [Option.map_some, Value.encode, writeArrayHeader, List.length_map,
            List.length_append, List.length_cons] at hhead ⊢
          omega

/-! ## Requests -/

theorem command_eq_encode (parts : List Bytes) :
    command parts = (Value.array (some ((parts.map some).map .bulk))).encode := by
  have hall : ∀ ps : List Bytes,
      ps.flatMap writeBulk = Value.encodeAll ((ps.map some).map .bulk) := by
    intro ps
    induction ps with
    | nil => rfl
    | cons p ps ih =>
        simp only [List.flatMap_cons, List.map_cons, Value.encodeAll, Value.encode, ih]
  simp only [command, Value.encode, List.length_map, hall]

theorem tokens_array (raw : Bytes) (parts : List Bytes) :
    Message.tokens ⟨raw, .array (some ((parts.map some).map .bulk))⟩ = parts := by
  simp [Message.tokens, Message.elements, List.filterMap_map, Function.comp_def, Message.tokenOf]

theorem tokenOf_bulk (data : Option Bytes) :
    Message.tokenOf (.bulk data) = some (data.getD []) := by
  cases data <;> rfl

/-- What a message that the wire can carry is made of, if it is an array. -/
theorem elements_of_sendable {m : Message} (h : m.value.Sendable) :
    ∃ items : List (Option Bytes), m.elements = items.map .bulk ∧ items.length ≤ 1024 ∧
      ∀ data ∈ items, Carried data := by
  obtain ⟨raw, value⟩ := m
  cases h with
  | status | error | integer | bulk | nullArray => exact ⟨[], rfl, by decide, by simp⟩
  | @array items hcount hitems => exact ⟨items, rfl, hcount, hitems⟩

/-- Each string is a token. A null string counts as an empty token. -/
theorem tokens_of_bulks {m : Message} {items : List (Option Bytes)}
    (h : m.elements = items.map .bulk) : m.tokens = items.map fun data => data.getD [] := by
  unfold Message.tokens
  rw [h, List.filterMap_map, ← List.filterMap_eq_map]
  congr 1
  exact funext tokenOf_bulk

/-- A message has no more tokens than an array may hold, and no longer ones than a bulk string. -/
theorem tokens_of_sendable {m : Message} (h : m.value.Sendable) :
    m.tokens.length ≤ 1024 ∧ ∀ p ∈ m.tokens, p.length ≤ 512 * 1024 * 1024 := by
  obtain ⟨items, helements, hcount, hitems⟩ := elements_of_sendable h
  rw [tokens_of_bulks helements]
  refine ⟨by simpa using hcount, ?_⟩
  intro p hp
  obtain ⟨data, hdata, rfl⟩ := List.mem_map.mp hp
  cases data with
  | none => simp
  | some d => exact hitems _ hdata d rfl

theorem tokenCount_of_sendable {m : Message} (h : m.value.Sendable) :
    m.tokenCount = m.tokens.length := by
  obtain ⟨items, helements, _⟩ := elements_of_sendable h
  unfold Message.tokenCount
  rw [tokens_of_bulks helements, helements, List.length_map, List.length_map]

theorem token?_of_sendable {m : Message} (h : m.value.Sendable) (i : Nat) :
    m.token? i = m.tokens[i]? := by
  obtain ⟨items, helements, _⟩ := elements_of_sendable h
  unfold Message.token?
  rw [tokens_of_bulks helements, helements, List.getElem?_map, List.getElem?_map]
  cases items[i]? with
  | none => rfl
  | some data => exact tokenOf_bulk data

/-- The wire can carry a request that is not too large. -/
theorem sendable_parts {parts : List Bytes} (hcount : parts.length ≤ 1024)
    (hparts : ∀ p ∈ parts, p.length ≤ 512 * 1024 * 1024) :
    (Value.array (some ((parts.map some).map .bulk))).Sendable := by
  refine .array (by simpa using hcount) ?_
  intro data hdata d hd
  obtain ⟨p, hp, hdata⟩ := List.mem_map.mp hdata
  rw [← hdata] at hd
  cases hd
  exact hparts _ hp

/-! ## Reading what was written -/

/-- A value that the wire can carry is read back from its canonical bytes. -/
theorem read_encode {v : Value} (h : v.Sendable) (s : Bytes) :
    Message.read (v.encode ++ s) = .done ⟨v.encode, v⟩ s :=
  Message.read_done_iff.mpr ⟨derives_encode h, rfl⟩

theorem read_command {parts : List Bytes}
    (h : (Value.array (some ((parts.map some).map .bulk))).Sendable) (s : Bytes) :
    Message.read (command parts ++ s) =
      .done ⟨command parts, .array (some ((parts.map some).map .bulk))⟩ s := by
  rw [command_eq_encode]
  exact read_encode h s

/-- **Writing and reading are inverse.** A value is read back from its canonical bytes, whatever
follows them, exactly if the wire can carry it; and so is a request, as the tokens that it was made
of. Conversely, whatever message some bytes begin with, the canonical bytes of its value are no
longer than those it was read from, they are read as that value again, and written again they are
the same. -/
theorem Value.encode_inverse :
    (∀ (v : Value) (s : Bytes),
      (Message.read (v.encode ++ s) = .done ⟨v.encode, v⟩ s ∧
        frameLength (v.encode ++ s) = .done v.encode.length s) ↔ v.Sendable) ∧
    (∀ (parts : List Bytes) (s : Bytes),
      (∃ m, Message.read (command parts ++ s) = .done m s ∧ m.raw = command parts ∧
        m.tokens = parts ∧ m.tokenCount = parts.length) ↔
      parts.length ≤ 1024 ∧ ∀ p ∈ parts, p.length ≤ 512 * 1024 * 1024) ∧
    ∀ (b rest : Bytes) (m : Message), Message.read b = .done m rest →
      m.value.encode.length ≤ m.raw.length ∧
      ∀ s, ∃ again, Message.read (m.value.encode ++ s) = .done again s ∧
        again.raw = m.value.encode ∧ again.value = m.value ∧
        again.value.encode = m.value.encode := by
  refine ⟨fun v s => ⟨?_, fun h => ?_⟩, fun parts s => ⟨?_, ?_⟩, ?_⟩
  · rintro ⟨hread, _⟩
    exact sendable_of_derives (Message.read_done_iff.mp hread).1
  · refine ⟨read_encode h s, ?_⟩
    rw [frameLength_eq, read_encode h s]
    rfl
  · rintro ⟨m, hread, _, htokens, _⟩
    rw [← htokens]
    exact tokens_of_sendable (sendable_of_derives (Message.read_done_iff.mp hread).1)
  · rintro ⟨hcount, hparts⟩
    refine ⟨_, read_command (sendable_parts hcount hparts) s, rfl, tokens_array _ parts, ?_⟩
    simp [Message.tokenCount, Message.elements]
  · intro b rest m hread
    obtain ⟨hm, _⟩ := Message.read_done_iff.mp hread
    refine ⟨length_encode_le hm, fun s => ?_⟩
    exact ⟨_, read_encode (sendable_of_derives hm) s, rfl, rfl, rfl⟩

/-- Two bulk strings, a null one and the bytes `CR LF $`, with lengths in uncommon spellings. -/
def Message.wordy : Message :=
  ⟨[42, 43, 48, 50, 13, 10, 36, 45, 48, 49, 13, 10, 36, 48, 48, 51, 13, 10, 13, 10, 36, 13, 10],
    .array (some [.bulk none, .bulk (some [13, 10, 36])])⟩

/-- What was read in 23 bytes takes 18, and is read back from them with another byte after them. -/
theorem Value.encode_inverse_wordy :
    Message.read (Message.wordy.raw ++ [cr]) = .done Message.wordy [cr] ∧
      Message.wordy.value.encode =
        [42, 50, 13, 10, 36, 45, 49, 13, 10, 36, 51, 13, 10, 13, 10, 36, 13, 10] ∧
      Message.wordy.value.encode.length ≤ Message.wordy.raw.length ∧
      (∃ again, Message.read (Message.wordy.value.encode ++ [plus]) = .done again [plus] ∧
        again.value = Message.wordy.value) ∧
      ∃ m, Message.read (command [[71, 69, 84], [13, 10]] ++ [plus]) = .done m [plus] ∧
        m.tokens = [[71, 69, 84], [13, 10]] := by
  have hread : Message.read (Message.wordy.raw ++ [cr]) = .done Message.wordy [cr] := rfl
  obtain ⟨_, hcommand, hagain⟩ := encode_inverse
  obtain ⟨hlen, hback⟩ := hagain _ _ _ hread
  obtain ⟨again, hreread, _, hvalue, _⟩ := hback [plus]
  obtain ⟨m, hm, _, htokens, _⟩ := (hcommand [[71, 69, 84], [13, 10]] [plus]).mpr (by decide)
  exact ⟨hread, by cbv, hlen, ⟨again, hreread, hvalue⟩, m, hm, htokens⟩

end ShardProxy.Wire
