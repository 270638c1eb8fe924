import RoboticsIpc.Lib.Separator
import RoboticsIpc.Router.TopologyLoader

/-!
The language of address texts.

`Denotes` is the grammar as it is documented: a scheme, and a path, a name, or a
host and a decimal port. `Accepts` is what `parse_address_` takes, with `stoul`'s
reading of a port spelled out by `StoulParts`. The two agree but for ports that
only `stoul` understands and for texts with a NUL byte in them
(`denotes_iff_accepted`).
-/

namespace RoboticsIpc

open ByteBuffer Checked Separator

/-! ### The grammar -/

/-- What an address text says. -/
inductive AddressText where
  | uds (path : Bytes)
  | udp (host : Bytes) (port : Nat)
  | shm (name : Bytes)

/-- What a loaded address says. -/
def PeerAddress.carried : PeerAddress → AddressText
  | .uds path => .uds path.bytes
  | .udp endpoint => .udp endpoint.host.bytes endpoint.port.toNat
  | .shm name => .shm name.bytes

def Decimal (text : Bytes) : Prop := ∀ c ∈ text, isDigit c = true

instance (text : Bytes) : Decidable (Decimal text) :=
  inferInstanceAs (Decidable (∀ c ∈ text, isDigit c = true))

/-- The three forms of an address. -/
inductive Denotes : Bytes → AddressText → Prop
  | uds (path : Bytes) (absolute : path.head? = some slash) (short : path.length ≤ 107) :
      Denotes (ascii "uds:" ++ path) (.uds path)
  | udp (host port : Bytes) (named : host ≠ []) (noColon : colon ∉ host) (written : port ≠ [])
      (decimal : Decimal port) (low : 1 ≤ decimalValue port) (high : decimalValue port ≤ 65535) :
      Denotes (ascii "udp:" ++ host ++ colon :: port) (.udp host (decimalValue port))
  | shm (name : Bytes) (absolute : name.head? = some slash) (short : name.length ≤ 250) :
      Denotes (ascii "shm:" ++ name) (.shm name)

/-! ### How `stoul` reads a text -/

def plusSign : UInt8 := 0x2B
def minusSign : UInt8 := 0x2D

/-- The parts of a text `stoul` converts. -/
structure StoulParts where
  blanks : Bytes
  sign : Bytes
  digits : Bytes
  rest : Bytes

/-- The text is made of these parts, and the digits are all there are. -/
structure StoulParts.Of (p : StoulParts) (text : Bytes) : Prop where
  text_eq : text = p.blanks ++ (p.sign ++ (p.digits ++ p.rest))
  blanks : ∀ c ∈ p.blanks, isSpace c = true
  sign : p.sign = [] ∨ p.sign = [plusSign] ∨ p.sign = [minusSign]
  written : p.digits ≠ []
  decimal : Decimal p.digits
  maximal : ∀ c, p.rest.head? = some c → isDigit c = false

/-- The number read: a minus sign negates modulo 2^64. -/
def StoulParts.value (p : StoulParts) : Nat :=
  if p.sign = [minusSign] then (2 ^ 64 - decimalValue p.digits) % 2 ^ 64
  else decimalValue p.digits

theorem isSpace_of_isDigit {c : UInt8} (digit : isDigit c = true) : isSpace c = false := by
  simp only [isDigit, Bool.and_eq_true, decide_eq_true_eq, UInt8.le_iff_toNat_le] at digit
  have notBlank : c ≠ 0x20 := by
    rintro rfl
    simp at digit
  simp only [isSpace, UInt8.le_iff_toNat_le, Bool.or_eq_false_iff, Bool.and_eq_false_iff,
    beq_eq_false_iff_ne, decide_eq_false_iff_not]
  refine ⟨notBlank, .inr ?_⟩
  have low := digit.1
  simp only [UInt8.reduceToNat] at low ⊢
  omega

theorem isDigit_head_of_cons {text : Bytes} (written : text ≠ []) (decimal : Decimal text) :
    ∃ c rest, text = c :: rest ∧ isDigit c = true := by
  cases text with
  | nil => exact absurd rfl written
  | cons c rest => exact ⟨c, rest, rfl, decimal c (List.mem_cons_self ..)⟩

/-- The digits of the parts are what `takeWhile` takes. -/
theorem StoulParts.Of.takeWhile {p : StoulParts} {text : Bytes} (parts : p.Of text) :
    (p.digits ++ p.rest).takeWhile isDigit = p.digits := by
  rw [List.takeWhile_append_of_pos parts.decimal]
  cases rest : p.rest with
  | nil => simp
  | cons c tail =>
      have stops := parts.maximal c (by rw [rest]; rfl)
      rw [List.takeWhile_cons_of_neg (by simp [stops]), List.append_nil]

/-- `stoul` after the blanks. -/
def stoulSigned (text : Bytes) : Option Nat :=
  let negative := text.head? == some minusSign
  let signed := negative || text.head? == some plusSign
  let digits := (if signed then text.drop 1 else text).takeWhile isDigit
  let magnitude := decimalValue digits
  if digits = [] ∨ 2 ^ 64 ≤ magnitude then none
  else if negative then some ((2 ^ 64 - magnitude) % 2 ^ 64) else some magnitude

theorem stoul_eq (text : Bytes) : stoul text = stoulSigned (text.dropWhile isSpace) := rfl

theorem StoulParts.Of.stoul {p : StoulParts} {text : Bytes} (parts : p.Of text) :
    stoul text = if 2 ^ 64 ≤ decimalValue p.digits then none else some p.value := by
  obtain ⟨d, more, digits, isDigit_d⟩ := isDigit_head_of_cons parts.written parts.decimal
  have taken := parts.takeWhile
  have notMinus : d ≠ minusSign := by rintro rfl; revert isDigit_d; decide
  have notPlus : d ≠ plusSign := by rintro rfl; revert isDigit_d; decide
  have unblanked : text.dropWhile isSpace = p.sign ++ (p.digits ++ p.rest) := by
    rw [parts.text_eq, List.dropWhile_append_of_pos parts.blanks]
    rcases parts.sign with none | plus | minus
    · rw [none, digits]
      exact List.dropWhile_cons_of_neg (by simp [isSpace_of_isDigit isDigit_d])
    · rw [plus]
      exact List.dropWhile_cons_of_neg (by decide)
    · rw [minus]
      exact List.dropWhile_cons_of_neg (by decide)
  rw [stoul_eq, unblanked]
  rcases parts.sign with none | plus | minus
  · have head : (p.digits ++ p.rest).head? = some d := by rw [digits]; rfl
    simp [stoulSigned, StoulParts.value, none, head, notMinus, notPlus, taken, parts.written]
  · simp [stoulSigned, StoulParts.value, plus, taken, parts.written, plusSign, minusSign]
  · simp [stoulSigned, StoulParts.value, minus, taken, parts.written]

/-- Whatever `stoul` converts has these parts. -/
theorem stoulParts_of_stoul {text : Bytes} {v : Nat} (read : stoul text = some v) :
    ∃ p : StoulParts, p.Of text := by
  let body := text.dropWhile isSpace
  let signed := body.head? == some minusSign || body.head? == some plusSign
  let sign := if signed then body.take 1 else []
  let number := if signed then body.drop 1 else body
  have split : body = sign ++ number := by
    by_cases isSigned : signed = true
    · simp only [sign, number, isSigned, if_true, List.take_append_drop]
    · simp only [sign, number, isSigned, Bool.false_eq_true, if_false, List.nil_append]
  refine ⟨⟨text.takeWhile isSpace, sign, number.takeWhile isDigit, number.dropWhile isDigit⟩,
    ?_, ?_, ?_, ?_, ?_, ?_⟩
  · simp only [List.takeWhile_append_dropWhile]
    rw [← split]
    exact List.takeWhile_append_dropWhile.symm
  · exact fun c mem => List.mem_takeWhile_imp mem
  · by_cases isSigned : signed = true
    · have head : body.head? = some minusSign ∨ body.head? = some plusSign := by
        simpa [signed] using isSigned
      have one : ∀ c, body.head? = some c → body.take 1 = [c] := by
        intro c first
        cases eq : body with
        | nil => simp [eq] at first
        | cons d rest => simpa [eq] using first
      simp only [sign, isSigned, if_true]
      rcases head with minus | plus
      · exact .inr (.inr (one _ minus))
      · exact .inr (.inl (one _ plus))
    · exact .inl (by simp only [sign, isSigned, Bool.false_eq_true, if_false])
  · intro none
    rw [stoul_eq] at read
    have nothing : stoulSigned body = Option.none := if_pos (.inl none)
    rw [nothing] at read
    cases read
  · exact fun c mem => List.mem_takeWhile_imp mem
  · intro c head
    have := List.head?_dropWhile_not isDigit number
    rw [head] at this
    simpa using this

/-! ### What the parser accepts -/

/-- The texts `parse_address_` accepts, and what it makes of them. -/
inductive Accepts : Bytes → PeerAddress → Prop
  | uds (path : Bytes) (absolute : path.head? = some slash) (short : path.length ≤ 107) :
      Accepts (ascii "uds:" ++ path) (.uds (cStr path))
  | udp (host port : Bytes) (v : Nat) (named : host ≠ []) (noColon : colon ∉ host)
      (lastColon : colon ∉ port) (read : stoul port = some v) (low : 1 ≤ v) (high : v ≤ 65535) :
      Accepts (ascii "udp:" ++ host ++ colon :: port) (.udp ⟨cStr host, UInt16.ofNat v⟩)
  | shm (name : Bytes) (absolute : name.head? = some slash) (short : name.length ≤ 250) :
      Accepts (ascii "shm:" ++ name) (.shm (cStr name))

theorem splitScheme_eq_ok {spec scheme rest : Bytes} :
    splitScheme spec = .ok (scheme, rest) ↔ spec = scheme ++ colon :: rest ∧ colon ∉ scheme := by
  simp only [splitScheme, bind_eq_ok, required_eq_ok, idxOf?_eq_some]
  constructor
  · rintro ⟨pos, ⟨before, after, rfl, fresh, rfl⟩, result⟩
    cases result
    refine ⟨by simp, by simpa using fresh⟩
  · rintro ⟨rfl, fresh⟩
    refine ⟨scheme.length, ⟨scheme, rest, rfl, fresh, rfl⟩, ?_⟩
    simp [pure, Except.pure]

theorem rfind_eq_some {text : Bytes} {c : UInt8} {pos : Nat} : rfind c text = some pos ↔
    ∃ before after, text = before ++ c :: after ∧ c ∉ after ∧ before.length = pos := by
  simp only [rfind, Option.map_eq_some_iff, idxOf?_reverse_eq_some]
  constructor
  · rintro ⟨i, ⟨before, after, rfl, fresh, rfl⟩, rfl⟩
    refine ⟨before, after, rfl, fresh, ?_⟩
    simp only [List.length_append, List.length_cons]
    omega
  · rintro ⟨before, after, rfl, fresh, rfl⟩
    refine ⟨after.length, ⟨before, after, rfl, fresh, rfl⟩, ?_⟩
    simp only [List.length_append, List.length_cons]
    omega

theorem parseUds_eq_ok {spec rest : Bytes} {a : PeerAddress} : parseUds spec rest = .ok a ↔
    rest.head? = some slash ∧ rest.length ≤ kUdsPathMaxLen ∧ a = .uds (cStr rest) := by
  simp only [parseUds, bind_eq_ok, rejectIf_eq_ok, not_not, not_lt]
  constructor
  · rintro ⟨_, absolute, _, short, result⟩
    cases result
    exact ⟨absolute, short, rfl⟩
  · rintro ⟨absolute, short, rfl⟩
    exact ⟨(), absolute, (), short, rfl⟩

theorem parseShm_eq_ok {spec rest : Bytes} {a : PeerAddress} : parseShm spec rest = .ok a ↔
    rest.head? = some slash ∧ rest.length ≤ kShmNameMaxLen ∧ a = .shm (cStr rest) := by
  simp only [parseShm, bind_eq_ok, rejectIf_eq_ok, not_not, not_lt]
  constructor
  · rintro ⟨_, absolute, _, short, result⟩
    cases result
    exact ⟨absolute, short, rfl⟩
  · rintro ⟨absolute, short, rfl⟩
    exact ⟨(), absolute, (), short, rfl⟩

/-- A port that `stoul` converts has something in it. -/
theorem ne_nil_of_stoul {text : Bytes} {v : Nat} (read : stoul text = some v) : text ≠ [] := by
  rintro rfl
  cases read

/-- What stands on the two sides of a colon. -/
theorem cut_at_colon (host port : Bytes) :
    (host ++ colon :: port).take host.length = host ∧
      (host ++ colon :: port).drop (host.length + 1) = port := by
  constructor
  · exact List.take_left
  · have past : host.length + 1 = (host ++ [colon]).length := by simp
    rw [List.append_cons, past, List.drop_left]

theorem parseUdp_eq_ok {spec rest : Bytes} {a : PeerAddress} : parseUdp spec rest = .ok a ↔
    ∃ host port v, rest = host ++ colon :: port ∧ host ≠ [] ∧ colon ∉ host ∧ colon ∉ port ∧
      stoul port = some v ∧ 1 ≤ v ∧ v ≤ 65535 ∧ a = .udp ⟨cStr host, UInt16.ofNat v⟩ := by
  simp only [parseUdp, bind_eq_ok, required_eq_ok, rejectIf_eq_ok, rfind_eq_some, not_or, not_lt]
  constructor
  · rintro ⟨pos, ⟨host, port, rfl, lastColon, rfl⟩, _, ⟨named, -⟩, _, noColon, v, read, _,
      ⟨nonzero, high⟩, result⟩
    obtain ⟨left, right⟩ := cut_at_colon host port
    rw [left] at noColon
    rw [right] at read
    simp only [left] at result
    cases result
    refine ⟨host, port, v, rfl, ?_, noColon, lastColon, read, Nat.pos_of_ne_zero nonzero, high,
      rfl⟩
    rintro rfl
    exact named rfl
  · rintro ⟨host, port, v, rfl, named, noColon, lastColon, read, low, high, rfl⟩
    obtain ⟨left, right⟩ := cut_at_colon host port
    have written := List.length_pos_iff.mpr (ne_nil_of_stoul read)
    refine ⟨host.length, ⟨host, port, rfl, lastColon, rfl⟩, (), ⟨?_, ?_⟩, (), ?_, v, ?_, (),
      ⟨by omega, high⟩, ?_⟩
    · exact fun empty => named (List.eq_nil_of_length_eq_zero empty)
    · simp only [List.length_append, List.length_cons]
      omega
    · rw [left]
      exact noColon
    · rw [right]
      exact read
    · rw [left]
      rfl

theorem parseAddress_eq_ok {spec : Bytes} {a : PeerAddress} :
    parseAddress spec = .ok a ↔ Accepts spec a := by
  constructor
  · intro ok
    obtain ⟨⟨scheme, rest⟩, split, ok⟩ := bind_eq_ok.mp ok
    obtain ⟨rfl, -⟩ := splitScheme_eq_ok.mp split
    simp only at ok
    split at ok
    · rename_i uds
      obtain ⟨absolute, short, rfl⟩ := parseUds_eq_ok.mp ok
      subst uds
      exact .uds rest absolute short
    · split at ok
      · rename_i udp
        obtain ⟨host, port, v, rfl, named, noColon, lastColon, read, low, high, rfl⟩ :=
          parseUdp_eq_ok.mp ok
        subst udp
        rw [List.append_cons, ← List.append_assoc]
        exact .udp host port v named noColon lastColon read low high
      · split at ok
        · rename_i shm
          obtain ⟨absolute, short, rfl⟩ := parseShm_eq_ok.mp ok
          subst shm
          exact .shm rest absolute short
        · cases ok
  · intro accepts
    refine bind_eq_ok.mpr ?_
    cases accepts with
    | uds path absolute short =>
        exact ⟨(ascii "uds", path), splitScheme_eq_ok.mpr ⟨rfl, by decide⟩,
          parseUds_eq_ok.mpr ⟨absolute, short, rfl⟩⟩
    | udp host port v named noColon lastColon read low high =>
        refine ⟨(ascii "udp", host ++ colon :: port), splitScheme_eq_ok.mpr ⟨?_, by decide⟩, ?_⟩
        · rw [List.append_assoc]
          rfl
        · exact parseUdp_eq_ok.mpr
            ⟨host, port, v, rfl, named, noColon, lastColon, read, low, high, rfl⟩
    | shm name absolute short =>
        exact ⟨(ascii "shm", name), splitScheme_eq_ok.mpr ⟨rfl, by decide⟩,
          parseShm_eq_ok.mpr ⟨absolute, short, rfl⟩⟩

/-! ### Where the two agree -/

/-- The parser accepts the text as the grammar reads it, or rejects what is no address. -/
def ParsedExactly (spec : Bytes) : Prop :=
  ∀ x, Denotes spec x ↔ ∃ a, parseAddress spec = .ok a ∧ a.carried = x

/-- A port that is no decimal number: `stoul` skips blanks before it, a sign, or what
follows the digits, and still arrives at a port number. -/
def LenientPort (port : Bytes) : Prop :=
  ¬ Decimal port ∧ ∃ p : StoulParts, p.Of port ∧ decimalValue p.digits < 2 ^ 64 ∧
    1 ≤ p.value ∧ p.value ≤ 65535

/-- A UDP address but for its port. -/
def LenientAddress (spec : Bytes) : Prop :=
  ∃ host port, spec = ascii "udp:" ++ host ++ colon :: port ∧ host ≠ [] ∧ colon ∉ host ∧
    colon ∉ port ∧ LenientPort port

/-- An address that a C string cuts off. -/
def CutAddress (spec : Bytes) : Prop := (0 : UInt8) ∈ spec ∧ ∃ x, Denotes spec x

theorem stoul_of_decimal {port : Bytes} (written : port ≠ []) (decimal : Decimal port) :
    stoul port = if 2 ^ 64 ≤ decimalValue port then none else some (decimalValue port) := by
  have parts : StoulParts.Of ⟨[], [], port, []⟩ port :=
    ⟨by simp, by simp, .inl rfl, written, decimal, by simp⟩
  exact parts.stoul

theorem not_mem_of_decimal {c : UInt8} {port : Bytes} (decimal : Decimal port)
    (notDigit : isDigit c = false) : c ∉ port := by
  intro mem
  rw [decimal c mem] at notDigit
  cases notDigit

/-- An address is accepted, as what it says unless a NUL cuts it. -/
theorem Denotes.accepts {spec : Bytes} {x : AddressText} (denotes : Denotes spec x) :
    ∃ a, Accepts spec a ∧ ((0 : UInt8) ∉ spec → a.carried = x) := by
  cases denotes with
  | uds path absolute short =>
      refine ⟨_, .uds path absolute short, ?_⟩
      intro noNul
      rw [PeerAddress.carried, cStr_of_noNul fun mem => noNul (List.mem_append_right _ mem)]
  | udp host port named noColon written decimal low high =>
      have read : stoul port = some (decimalValue port) := by
        rw [stoul_of_decimal written decimal]
        exact if_neg (by omega)
      have lastColon : colon ∉ port := not_mem_of_decimal decimal (by decide)
      refine ⟨_, .udp host port _ named noColon lastColon read low high, ?_⟩
      intro noNul
      have whole : (0 : UInt8) ∉ host := fun mem => noNul (by simp [mem])
      have value : (UInt16.ofNat (decimalValue port)).toNat = decimalValue port :=
        Nat.mod_eq_of_lt (by omega)
      simp only [PeerAddress.carried, cStr_of_noNul whole, value]
  | shm name absolute short =>
      refine ⟨_, .shm name absolute short, ?_⟩
      intro noNul
      rw [PeerAddress.carried, cStr_of_noNul fun mem => noNul (List.mem_append_right _ mem)]

/-- What is accepted is an address, unless its port is lenient. -/
theorem Accepts.denotes {spec : Bytes} {a : PeerAddress} (accepts : Accepts spec a)
    (strict : ¬ LenientAddress spec) : ∃ x, Denotes spec x := by
  cases accepts with
  | uds path absolute short => exact ⟨_, .uds path absolute short⟩
  | udp host port v named noColon lastColon read low high =>
      have written := ne_nil_of_stoul read
      have decimal : Decimal port := by
        by_contra lenient
        obtain ⟨p, parts⟩ := stoulParts_of_stoul read
        rw [parts.stoul] at read
        split at read
        · cases read
        · rename_i small
          obtain rfl := Option.some.inj read
          exact strict ⟨host, port, rfl, named, noColon, lastColon, lenient, p, parts,
            Nat.not_le.mp small, low, high⟩
      rw [stoul_of_decimal written decimal] at read
      split at read
      · cases read
      · obtain rfl := Option.some.inj read
        exact ⟨_, .udp host port named noColon written decimal low high⟩
  | shm name absolute short => exact ⟨_, .shm name absolute short⟩

/-- A text has one meaning at most. -/
theorem Accepts.unique {spec : Bytes} {a b : PeerAddress} (first : Accepts spec a)
    (second : Accepts spec b) : a = b := by
  have one := parseAddress_eq_ok.mpr first
  rw [parseAddress_eq_ok.mpr second] at one
  exact (Except.ok.inj one).symm

/-- No C string carries a NUL, so a text that says one is not carried whole. -/
theorem Denotes.not_carried {spec : Bytes} {x : AddressText} (denotes : Denotes spec x)
    (nul : (0 : UInt8) ∈ spec) (a : PeerAddress) : a.carried ≠ x := by
  cases denotes with
  | uds path absolute short =>
      have inside : (0 : UInt8) ∈ path := by
        rcases List.mem_append.mp nul with scheme | inside
        · exact absurd scheme (by decide)
        · exact inside
      cases a with
      | uds path' =>
          intro same
          exact path'.noNul (AddressText.uds.inj same ▸ inside)
      | udp endpoint => exact AddressText.noConfusion
      | shm name' => exact AddressText.noConfusion
  | udp host port named noColon written decimal low high =>
      have inside : (0 : UInt8) ∈ host := by
        have digits : (0 : UInt8) ∉ port := not_mem_of_decimal decimal (by decide)
        have notColon : (0 : UInt8) ≠ colon := by decide
        rcases List.mem_append.mp nul with before | after
        · rcases List.mem_append.mp before with scheme | inside
          · exact absurd scheme (by decide)
          · exact inside
        · simp [notColon, digits] at after
      cases a with
      | uds path' => exact AddressText.noConfusion
      | udp endpoint =>
          intro same
          exact endpoint.host.noNul ((AddressText.udp.inj same).1 ▸ inside)
      | shm name' => exact AddressText.noConfusion
  | shm name absolute short =>
      have inside : (0 : UInt8) ∈ name := by
        rcases List.mem_append.mp nul with scheme | inside
        · exact absurd scheme (by decide)
        · exact inside
      cases a with
      | uds path' => exact AddressText.noConfusion
      | udp endpoint => exact AddressText.noConfusion
      | shm name' =>
          intro same
          exact name'.noNul (AddressText.shm.inj same ▸ inside)

/-- A lenient address is accepted, and is no address. -/
theorem LenientAddress.not_exact {spec : Bytes} (lenient : LenientAddress spec) :
    ¬ ParsedExactly spec := by
  obtain ⟨host, port, rfl, named, noColon, lastColon, notDecimal, p, parts, small, low, high⟩ :=
    lenient
  have read : stoul port = some p.value := by
    rw [parts.stoul]
    exact if_neg (Nat.not_le.mpr small)
  intro exact_
  have accepted := parseAddress_eq_ok.mpr
    (Accepts.udp host port _ named noColon lastColon read low high)
  generalize said : AddressText.udp (cStr host).bytes (UInt16.ofNat p.value).toNat = x at *
  have denotes := (exact_ x).mpr ⟨_, accepted, said⟩
  generalize text : ascii "udp:" ++ host ++ colon :: port = spec at denotes
  cases denotes with
  | uds path absolute short => cases said
  | udp host' port' named' noColon' written decimal low' high' =>
      have rests : host ++ colon :: port = host' ++ colon :: port' := by
        rw [List.append_assoc, List.append_assoc] at text
        exact List.append_cancel_left text
      obtain ⟨-, rfl⟩ := first_unique noColon noColon' rests
      exact notDecimal decimal
  | shm name absolute short => cases said

theorem CutAddress.not_exact {spec : Bytes} (cut : CutAddress spec) : ¬ ParsedExactly spec := by
  obtain ⟨nul, x, denotes⟩ := cut
  intro exact_
  obtain ⟨a, -, carries⟩ := (exact_ x).mp denotes
  exact denotes.not_carried nul a carries

/-- The parser is exact but for lenient ports and NUL bytes. -/
theorem parsed_exactly_iff (spec : Bytes) :
    ParsedExactly spec ↔ ¬ LenientAddress spec ∧ ¬ CutAddress spec := by
  constructor
  · intro exact_
    exact ⟨fun lenient => lenient.not_exact exact_, fun cut => cut.not_exact exact_⟩
  · rintro ⟨strict, whole⟩ x
    constructor
    · intro denotes
      obtain ⟨a, accepts, carries⟩ := denotes.accepts
      exact ⟨a, parseAddress_eq_ok.mpr accepts, carries fun nul => whole ⟨nul, x, denotes⟩⟩
    · rintro ⟨a, accepted, rfl⟩
      have accepts := parseAddress_eq_ok.mp accepted
      obtain ⟨y, denotes⟩ := accepts.denotes strict
      obtain ⟨b, same, carries⟩ := denotes.accepts
      obtain rfl := accepts.unique same
      rw [carries fun nul => whole ⟨nul, y, denotes⟩]
      exact denotes

/-- Trailing letters, a negated number and a path with a NUL in it. -/
theorem lenient_addresses :
    (parseAddress (ascii "udp:127.0.0.1:80abc") = .ok (.udp ⟨cStr (ascii "127.0.0.1"), 80⟩) ∧
      ¬ ParsedExactly (ascii "udp:127.0.0.1:80abc")) ∧
    (parseAddress (ascii "udp:127.0.0.1:-18446744073709551536") =
        .ok (.udp ⟨cStr (ascii "127.0.0.1"), 80⟩) ∧
      ¬ ParsedExactly (ascii "udp:127.0.0.1:-18446744073709551536")) ∧
    (parseAddress (ascii "uds:/a" ++ 0 :: ascii "b") = .ok (.uds (cStr (ascii "/a"))) ∧
      ¬ ParsedExactly (ascii "uds:/a" ++ 0 :: ascii "b")) := by
  have trailing : StoulParts.Of ⟨[], [], ascii "80", ascii "abc"⟩ (ascii "80abc") :=
    { text_eq := rfl
      blanks := List.forall_mem_nil _
      sign := .inl rfl
      written := List.cons_ne_nil _ _
      decimal := by decide +kernel
      maximal := by decide +kernel }
  have negated : StoulParts.Of ⟨[], [minusSign], ascii "18446744073709551536", []⟩
      (ascii "-18446744073709551536") :=
    { text_eq := rfl
      blanks := List.forall_mem_nil _
      sign := .inr (.inr rfl)
      written := List.cons_ne_nil _ _
      decimal := by decide +kernel
      maximal := by simp }
  refine ⟨⟨by decide +kernel, ?_⟩, ⟨by decide +kernel, ?_⟩, ⟨by decide +kernel, ?_⟩⟩
  · have port : LenientPort (ascii "80abc") :=
      ⟨by decide, _, trailing, by decide, by decide, by decide⟩
    exact LenientAddress.not_exact ⟨ascii "127.0.0.1", ascii "80abc", rfl,
      List.cons_ne_nil _ _, by decide, by decide, port⟩
  · have port : LenientPort (ascii "-18446744073709551536") :=
      ⟨by decide, _, negated, by decide, by decide, by decide⟩
    exact LenientAddress.not_exact ⟨ascii "127.0.0.1", ascii "-18446744073709551536", rfl,
      List.cons_ne_nil _ _, by decide, by decide, port⟩
  · exact CutAddress.not_exact ⟨by decide, _, .uds (ascii "/a" ++ 0 :: ascii "b") rfl (by decide)⟩

end RoboticsIpc
