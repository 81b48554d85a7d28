import Mathlib
import RobotConsole.Measure.Fingerprint

/-!
# What encodings keep apart

The encoding of a number, a text or a list of such is a row of tokens: numbers, texts and the
lengths of lists. The tokens of a sample determine it (`tokens_injective`), but they are written one
after another with nothing between them, and only a list says how much belongs to it. Two samples
are therefore encoded alike when the bytes of one can be split into the tokens of the other, and in
no other case (`encode_eq_iff_resplits`).
-/

namespace RobotConsole.Measure

variable {b : UInt8} {levels : Nat}

/-! ## The bytes of a text -/

theorem toList_loop (bs : ByteArray) (i : Nat) (read : List UInt8) :
    ByteArray.toList.loop bs i read = read.reverse ++ bs.data.toList.drop i := by
  fun_induction ByteArray.toList.loop bs i read with
  | case1 i read h ih =>
    have hlt : i < bs.data.toList.length := h
    have hget : bs.get! i = bs.data.toList[i] := by
      show bs.data[i]! = _
      rw [getElem!_pos bs.data i h, Array.getElem_toList]
    rw [ih, List.drop_eq_getElem_cons hlt, hget, List.reverse_cons, List.append_assoc]
    rfl
  | case2 i read h =>
    have hle : bs.data.toList.length ≤ i := Nat.le_of_not_lt h
    rw [List.drop_eq_nil_of_le hle, List.append_nil]

theorem utf8_eq (s : String) : utf8 s = s.toList.flatMap String.utf8EncodeChar := by
  show ByteArray.toList.loop s.toByteArray 0 [] = _
  rw [toList_loop, ← String.utf8Encode_toList, List.utf8Encode, List.toList_data_toByteArray]
  rfl

theorem utf8_append (s t : String) : utf8 (s ++ t) = utf8 s ++ utf8 t := by
  simp only [utf8_eq, String.toList_append, List.flatMap_append]

theorem utf8_injective {s t : String} (h : utf8 s = utf8 t) : s = t := by
  rw [utf8_eq, utf8_eq] at h
  apply String.toByteArray_inj.mp
  rw [← String.utf8Encode_toList, ← String.utf8Encode_toList, List.utf8Encode, List.utf8Encode, h]

/-- The bytes of digits. -/
def isDigitByte (b : UInt8) : Bool :=
  48 ≤ b && b ≤ 57

theorem utf8EncodeChar_of_isDigit {c : Char} (h : c.isDigit = true) :
    ∃ b, String.utf8EncodeChar c = [b] ∧ isDigitByte b = true := by
  have hrange : 48 ≤ c.val.toNat ∧ c.val.toNat ≤ 57 := by
    simpa [Char.isDigit, UInt32.le_iff_toNat_le] using h
  have hsize : c.utf8Size = 1 := by
    have : c.val ≤ 127 := UInt32.le_iff_toNat_le.mpr (show c.val.toNat ≤ 127 by omega)
    simp [Char.utf8Size, this]
  refine ⟨c.val.toUInt8, String.utf8EncodeChar_eq_singleton hsize, ?_⟩
  simp only [isDigitByte, Bool.and_eq_true, decide_eq_true_eq, UInt8.le_iff_toNat_le,
    UInt32.toNat_toUInt8]
  show 48 ≤ c.val.toNat % 256 ∧ c.val.toNat % 256 ≤ 57
  omega

theorem isDigitByte_of_mem_utf8_repr {n : Nat} (hb : b ∈ utf8 n.repr) :
    isDigitByte b = true := by
  rw [utf8_eq, Nat.toList_repr] at hb
  obtain ⟨c, hc, hb⟩ := List.mem_flatMap.mp hb
  have hdigit : c.isDigit = true := Nat.isDigit_of_mem_toDigits (by decide) (by decide) hc
  obtain ⟨digit, hwritten, hisDigit⟩ := utf8EncodeChar_of_isDigit hdigit
  rw [hwritten, List.mem_singleton] at hb
  rwa [hb]

theorem utf8_repr_ne_nil (n : Nat) : utf8 n.repr ≠ [] := by
  rw [utf8_eq, Nat.toList_repr]
  intro hnil
  obtain ⟨c, hc⟩ := List.exists_mem_of_ne_nil _ (Nat.toDigits_ne_nil (b := 10) (n := n))
  exact String.utf8EncodeChar_ne_nil (List.flatMap_eq_nil_iff.mp hnil c hc)

/-! ## Tokens -/

/-- What encodings are made of. -/
inductive Token where
  | int (n : Int)
  | text (s : String)
  /-- The length of a list. -/
  | count (n : Nat)
  deriving Repr, DecidableEq

namespace Token

/-- How a token is written. -/
def bytes : Token → List UInt8
  | .int n => utf8 (toString n)
  | .text s => utf8 ("s" ++ s)
  | .count n => utf8 s!"L{n}"

/-- The bytes that a token can start with. -/
def isOpener (b : UInt8) : Bool :=
  b == 115 || b == 76 || b == 45 || isDigitByte b

theorem bytes_text (s : String) : (text s).bytes = 115 :: utf8 s := by
  show utf8 ("s" ++ s) = _
  rw [utf8_append, utf8_eq "s"]
  rfl

theorem bytes_count (n : Nat) : (count n).bytes = 76 :: utf8 n.repr := by
  show utf8 ("L" ++ n.repr) = _
  rw [utf8_append, utf8_eq "L"]
  rfl

theorem bytes_negative (n : Nat) : (int (.negSucc n)).bytes = 45 :: utf8 (n + 1).repr := by
  show utf8 ("-" ++ (n + 1).repr) = _
  rw [utf8_append, utf8_eq "-"]
  rfl

/-- A token starts with the byte of its kind, and after it a number or a length has digits only. -/
theorem bytes_cases (t : Token) : ∃ b rest, t.bytes = b :: rest ∧
    ((∃ s, t = .text s ∧ b = 115 ∧ rest = utf8 s) ∨
      (∃ n, t = .count n ∧ b = 76 ∧ ∀ x ∈ rest, isDigitByte x = true) ∨
      (∃ n, t = .int n ∧ (b = 45 ∧ n < 0 ∨ isDigitByte b = true ∧ 0 ≤ n) ∧
        ∀ x ∈ rest, isDigitByte x = true)) := by
  cases t with
  | text s => exact ⟨_, _, bytes_text s, .inl ⟨s, rfl, rfl, rfl⟩⟩
  | count n =>
    exact ⟨_, _, bytes_count n, .inr (.inl ⟨n, rfl, rfl, fun _ => isDigitByte_of_mem_utf8_repr⟩)⟩
  | int n =>
    cases n with
    | ofNat n =>
      obtain ⟨b, rest, hwritten⟩ := List.exists_cons_of_ne_nil (utf8_repr_ne_nil n)
      have hdigits : ∀ x ∈ b :: rest, isDigitByte x = true := by
        intro x hx
        rw [← hwritten] at hx
        exact isDigitByte_of_mem_utf8_repr hx
      refine ⟨b, rest, hwritten, .inr (.inr ⟨_, rfl, .inr ⟨?_, Int.natCast_nonneg n⟩, ?_⟩)⟩
      · exact hdigits b List.mem_cons_self
      · exact fun x hx => hdigits x (List.mem_cons_of_mem b hx)
    | negSucc n =>
      exact ⟨_, _, bytes_negative n, .inr (.inr ⟨_, rfl, .inl ⟨rfl, Int.negSucc_lt_zero n⟩,
        fun _ => isDigitByte_of_mem_utf8_repr⟩)⟩

theorem bytes_ne_nil (t : Token) : t.bytes ≠ [] := by
  obtain ⟨b, rest, hbytes, -⟩ := t.bytes_cases
  rw [hbytes]
  exact List.cons_ne_nil b rest

theorem isOpener_of_bytes {t : Token} {rest : List UInt8} (h : t.bytes = b :: rest) :
    isOpener b = true := by
  obtain ⟨b', rest', hbytes, hcases⟩ := t.bytes_cases
  obtain ⟨rfl, -⟩ := List.cons.inj (h.symm.trans hbytes)
  unfold isOpener
  rcases hcases with ⟨_, _, rfl, _⟩ | ⟨_, _, rfl, _⟩ | ⟨_, _, ⟨rfl, _⟩ | ⟨hdigit, _⟩, _⟩
  · rfl
  · rfl
  · rfl
  · simp [hdigit]

theorem nonneg_of_bytes {t : Token} {rest : List UInt8} (h : t.bytes = b :: rest)
    (hdigit : isDigitByte b = true) : ∃ n, 0 ≤ n ∧ t = .int n := by
  obtain ⟨b', rest', hbytes, hcases⟩ := t.bytes_cases
  obtain ⟨rfl, -⟩ := List.cons.inj (h.symm.trans hbytes)
  rcases hcases with ⟨_, _, rfl, _⟩ | ⟨_, _, rfl, _⟩ | ⟨n, ht, ⟨rfl, _⟩ | ⟨_, hn⟩, _⟩
  · cases hdigit
  · cases hdigit
  · cases hdigit
  · exact ⟨n, hn, ht⟩

/-- Where the writing of one token starts that of another, both are texts, or neither is and what
comes on top is digits. -/
theorem extends_cases {a b : Token} {more : List UInt8} (h : b.bytes = a.bytes ++ more) :
    (∃ s, b = .text s ∧ (∃ s', a = .text s') ∧ ∀ x ∈ more, x ∈ utf8 s) ∨
      ((∀ s, a ≠ .text s) ∧ ∀ x ∈ more, isDigitByte x = true) := by
  obtain ⟨x, xs, ha, hkindA⟩ := a.bytes_cases
  obtain ⟨y, ys, hb, hkindB⟩ := b.bytes_cases
  rw [ha, hb, List.cons_append] at h
  obtain ⟨rfl, rfl⟩ := List.cons.inj h
  have hmore {z : UInt8} (hz : z ∈ more) : z ∈ xs ++ more := List.mem_append_right xs hz
  rcases hkindB with ⟨s, rfl, rfl, hs⟩ | ⟨n, rfl, rfl, hdigits⟩ | ⟨n, rfl, hfirst, hdigits⟩
  · rcases hkindA with ⟨s', rfl, _⟩ | ⟨_, _, hfalse, _⟩ | ⟨_, _, ⟨hfalse, _⟩ | ⟨hfalse, _⟩, _⟩
    · exact .inl ⟨s, rfl, ⟨s', rfl⟩, fun z hz => hs ▸ hmore hz⟩
    · cases hfalse
    · cases hfalse
    · cases hfalse
  · refine .inr ⟨?_, fun z hz => hdigits z (hmore hz)⟩
    rintro s rfl
    rw [bytes_text] at ha
    cases ha
  · refine .inr ⟨?_, fun z hz => hdigits z (hmore hz)⟩
    rintro s rfl
    rw [bytes_text] at ha
    obtain ⟨rfl, -⟩ := List.cons.inj ha
    rcases hfirst with ⟨hfalse, _⟩ | ⟨hfalse, _⟩ <;> cases hfalse

theorem bytes_injective {a b : Token} (h : a.bytes = b.bytes) : a = b := by
  obtain ⟨x, xs, ha, hkindA⟩ := a.bytes_cases
  obtain ⟨y, ys, hb, hkindB⟩ := b.bytes_cases
  obtain ⟨rfl, rfl⟩ := List.cons.inj (ha.symm.trans (h.trans hb))
  rcases hkindA with ⟨s, rfl, rfl, rfl⟩ | ⟨n, rfl, rfl, _⟩ | ⟨n, rfl, hx, _⟩
  · rcases hkindB with ⟨t, rfl, _, ht⟩ | ⟨_, _, hx, _⟩ | ⟨_, _, ⟨hx, _⟩ | ⟨hx, _⟩, _⟩
    · rw [utf8_injective ht]
    · cases hx
    · cases hx
    · cases hx
  · rcases hkindB with ⟨_, _, hx, _⟩ | ⟨m, rfl, _⟩ | ⟨_, _, ⟨hx, _⟩ | ⟨hx, _⟩, _⟩
    · cases hx
    · rw [bytes_count, bytes_count] at h
      rw [Nat.repr_inj.mp (utf8_injective (List.cons.inj h).2)]
    · cases hx
    · cases hx
  · rcases hkindB with ⟨_, _, rfl, _⟩ | ⟨_, _, rfl, _⟩ | ⟨m, rfl, _⟩
    · rcases hx with ⟨hx, _⟩ | ⟨hx, _⟩ <;> cases hx
    · rcases hx with ⟨hx, _⟩ | ⟨hx, _⟩ <;> cases hx
    · rw [Int.repr_inj.mp (utf8_injective h)]

/-- Whether a token that is written right after another could be taken for more of it. -/
def runsInto : Token → Token → Bool
  | .text _, _ => false
  | _, .int n => 0 ≤ n
  | _, _ => false

theorem runsInto_of_nonneg {a : Token} (ha : ∀ s, a ≠ .text s) {n : Int} (hn : 0 ≤ n) :
    a.runsInto (.int n) = true := by
  cases a with
  | text s => exact absurd rfl (ha s)
  | int m => exact decide_eq_true hn
  | count m => exact decide_eq_true hn

end Token

/-- Tokens written one after another. -/
def written (ts : List Token) : List UInt8 :=
  ts.flatMap Token.bytes

theorem written_eq_nil {ts : List Token} (h : written ts = []) : ts = [] := by
  cases ts with
  | nil => rfl
  | cons t ts => exact absurd (List.append_eq_nil_iff.mp h).1 t.bytes_ne_nil

/-- The bytes of one row of tokens, split otherwise, are another row: after a common part stands a
token that the other row goes on with, and the tokens after it start with what is missing. -/
def Resplits (ts us : List Token) : Prop :=
  ∃ common a b more ts' us', more ≠ [] ∧ ts = common ++ a :: ts' ∧ us = common ++ b :: us' ∧
    b.bytes = a.bytes ++ more ∧ written ts' = more ++ written us'

theorem Resplits.cons {ts us : List Token} (h : Resplits ts us) (t : Token) :
    Resplits (t :: ts) (t :: us) := by
  obtain ⟨common, a, b, more, ts', us', hmore, rfl, rfl, hb, hrest⟩ := h
  exact ⟨t :: common, a, b, more, ts', us', hmore, rfl, rfl, hb, hrest⟩

theorem Resplits.written_eq {ts us : List Token} (h : Resplits ts us) :
    written ts = written us := by
  obtain ⟨common, a, b, more, ts', us', -, rfl, rfl, hb, hrest⟩ := h
  simp only [written, List.flatMap_append, List.flatMap_cons] at hrest ⊢
  rw [hb, hrest, List.append_assoc]

/-- Rows of tokens that are written alike are the same, or one is the other split otherwise. -/
theorem eq_or_resplits {ts us : List Token} (h : written ts = written us) :
    ts = us ∨ Resplits ts us ∨ Resplits us ts := by
  induction ts generalizing us with
  | nil => exact .inl (written_eq_nil h.symm).symm
  | cons t ts ih =>
    cases us with
    | nil => exact .inl (written_eq_nil h)
    | cons u us =>
      have hstep : t = u → written ts = written us →
          t :: ts = u :: us ∨ Resplits (t :: ts) (u :: us) ∨ Resplits (u :: us) (t :: ts) := by
        rintro rfl hrest
        rcases ih hrest with rfl | hsplit | hsplit
        · exact .inl rfl
        · exact .inr (.inl (hsplit.cons t))
        · exact .inr (.inr (hsplit.cons t))
      -- either token may be the longer one
      rcases List.append_eq_append_iff.mp h with ⟨more, hlonger, hrest⟩ | ⟨more, hlonger, hrest⟩
      · by_cases hmore : more = []
        · subst hmore
          rw [List.append_nil] at hlonger
          exact hstep (Token.bytes_injective hlonger.symm) hrest
        · exact .inr (.inl ⟨[], t, u, more, ts, us, hmore, rfl, rfl, hlonger, hrest⟩)
      · by_cases hmore : more = []
        · subst hmore
          rw [List.append_nil] at hlonger
          exact hstep (Token.bytes_injective hlonger) hrest.symm
        · exact .inr (.inr ⟨[], u, t, more, us, ts, hmore, rfl, rfl, hlonger, hrest⟩)

/-- A row of tokens whose writing leaves no doubt where its tokens end: no number that is not
negative stands right after a number or a length, and no text holds a byte that could start a token.
-/
structure Clear (ts : List Token) : Prop where
  apart : ts.IsChain fun a b => a.runsInto b = false
  texts : ∀ s, .text s ∈ ts → ∀ b ∈ utf8 s, Token.isOpener b = false

theorem Clear.not_resplits {ts us : List Token} (hts : Clear ts) (hus : Clear us) :
    ¬Resplits ts us := by
  rintro ⟨common, a, b, more, ts', us', hmore, rfl, rfl, hb, hrest⟩
  obtain ⟨x, xs, rfl⟩ := List.exists_cons_of_ne_nil hmore
  cases ts' with
  | nil => cases hrest
  | cons c ts' =>
    -- the token after the shorter one starts with the first byte that it lacks
    obtain ⟨y, ys, hc⟩ := List.exists_cons_of_ne_nil c.bytes_ne_nil
    have hfirst : y = x := by
      rw [written, List.flatMap_cons, hc, List.cons_append, List.cons_append] at hrest
      exact (List.cons.inj hrest).1
    subst hfirst
    rcases Token.extends_cases hb with ⟨s, rfl, -, hmem⟩ | ⟨ha, hdigits⟩
    · have hopen : Token.isOpener y = true := Token.isOpener_of_bytes hc
      rw [hus.texts s (by simp) y (hmem y List.mem_cons_self)] at hopen
      cases hopen
    · obtain ⟨n, hn, rfl⟩ := Token.nonneg_of_bytes hc (hdigits y List.mem_cons_self)
      have hchain := (List.isChain_append.mp hts.apart).2.1
      have hapart := (List.isChain_cons_cons.mp hchain).1
      rw [Token.runsInto_of_nonneg ha hn] at hapart
      cases hapart

/-! ## The tokens of a sample -/

mutual

/-- The tokens of a sample that is made of numbers, texts and lists. -/
def Sample.tokens : Sample → List Token
  | .int n => [.int n]
  | .text s => [.text s]
  | .list items => .count items.length :: tokensOfAll items
  | _ => []

/-- The tokens of samples one after another. -/
def tokensOfAll : List Sample → List Token
  | [] => []
  | item :: rest => item.tokens ++ tokensOfAll rest

end

mutual

/-- Whether a sample is made of numbers, texts and lists, none of them too deep or too long to be
encoded in full. -/
def Sample.isPlain : Nat → Sample → Bool
  | _ + 1, .int _ => true
  | _ + 1, .text _ => true
  | levels + 1, .list items => decide (items.length ≤ maxItems) && allPlain levels items
  | _, _ => false

/-- Whether all samples of a list are. -/
def allPlain : Nat → List Sample → Bool
  | _, [] => true
  | levels, item :: rest => item.isPlain levels && allPlain levels rest

end

theorem Sample.isPlain_cases {v : Sample} (h : v.isPlain levels = true) :
    ∃ below, levels = below + 1 ∧ ((∃ n, v = .int n) ∨ (∃ s, v = .text s) ∨
      ∃ items, v = .list items ∧ items.length ≤ maxItems ∧ allPlain below items = true) := by
  unfold Sample.isPlain at h
  split at h
  · exact ⟨_, rfl, .inl ⟨_, rfl⟩⟩
  · exact ⟨_, rfl, .inr (.inl ⟨_, rfl⟩)⟩
  · obtain ⟨hlength, hitems⟩ := Bool.and_eq_true_iff.mp h
    exact ⟨_, rfl, .inr (.inr ⟨_, rfl, of_decide_eq_true hlength, hitems⟩)⟩
  · cases h

theorem allPlain_cons {item : Sample} {rest : List Sample}
    (h : allPlain levels (item :: rest) = true) :
    item.isPlain levels = true ∧ allPlain levels rest = true := by
  rw [allPlain] at h
  exact Bool.and_eq_true_iff.mp h

theorem encodeAll_eq_map (marks : Marks) (items : List Sample) :
    encodeAll marks levels items = items.map (encode marks levels) := by
  induction items with
  | nil => rw [encodeAll, List.map_nil]
  | cons item rest ih => rw [encodeAll, ih, List.map_cons]

theorem flatten_encodeAll {marks : Marks}
    (hencode : ∀ v : Sample, v.isPlain levels = true → encode marks levels v = written v.tokens)
    {items : List Sample} (hitems : allPlain levels items = true) :
    (encodeAll marks levels items).flatten = written (tokensOfAll items) := by
  induction items with
  | nil => simp [encodeAll, tokensOfAll, written]
  | cons item rest ih =>
    obtain ⟨hitem, hrest⟩ := allPlain_cons hitems
    rw [encodeAll, List.flatten_cons, hencode item hitem, ih hrest, tokensOfAll, written, written,
      written, List.flatMap_append]

theorem encode_eq_written (marks : Marks) {v : Sample} (h : v.isPlain levels = true) :
    encode marks levels v = written v.tokens := by
  induction levels generalizing v with
  | zero =>
    obtain ⟨below, hlevels, -⟩ := Sample.isPlain_cases h
    cases hlevels
  | succ levels ih =>
    obtain ⟨below, hlevels, ⟨n, rfl⟩ | ⟨s, rfl⟩ | ⟨items, rfl, hlength, hitems⟩⟩ :=
      Sample.isPlain_cases h
    · simp [encode, Sample.tokens, written, Token.bytes]
    · simp [encode, Sample.tokens, written, Token.bytes]
    · obtain rfl := Nat.succ.inj hlevels
      have hshort : (encodeAll marks levels items).length ≤ maxItems := by
        rwa [encodeAll_eq_map, List.length_map]
      rw [encode, Marks.join, if_pos hshort, flatten_encodeAll (fun _ => ih) hitems, Sample.tokens]
      rfl

/-- Items that are as many as others and start with the same tokens are the same, if that is so of
each of them. -/
theorem items_eq_of_tokens
    (hsample : ∀ {v w : Sample} {r r' : List Token}, v.isPlain levels = true →
      w.isPlain levels = true → v.tokens ++ r = w.tokens ++ r' → v = w ∧ r = r')
    {vs ws : List Sample} {r r' : List Token} (hlength : vs.length = ws.length)
    (hvs : allPlain levels vs = true) (hws : allPlain levels ws = true)
    (h : tokensOfAll vs ++ r = tokensOfAll ws ++ r') : vs = ws ∧ r = r' := by
  induction vs generalizing ws with
  | nil =>
    cases ws with
    | nil => exact ⟨rfl, by simpa [tokensOfAll] using h⟩
    | cons w ws => cases hlength
  | cons v vs ih =>
    cases ws with
    | nil => cases hlength
    | cons w ws =>
      obtain ⟨hv, hvs⟩ := allPlain_cons hvs
      obtain ⟨hw, hws⟩ := allPlain_cons hws
      rw [tokensOfAll, tokensOfAll, List.append_assoc, List.append_assoc] at h
      obtain ⟨hfirst, hrest⟩ := hsample hv hw h
      obtain ⟨hothers, hr⟩ := ih (Nat.succ.inj hlength) hvs hws hrest
      exact ⟨by rw [hfirst, hothers], hr⟩

theorem eq_of_tokens_append {v w : Sample} {r r' : List Token}
    (hv : v.isPlain levels = true) (hw : w.isPlain levels = true)
    (h : v.tokens ++ r = w.tokens ++ r') : v = w ∧ r = r' := by
  induction levels generalizing v w r r' with
  | zero =>
    obtain ⟨below, hlevels, -⟩ := Sample.isPlain_cases hv
    cases hlevels
  | succ levels ih =>
    obtain ⟨below, hlevels, hkind⟩ := Sample.isPlain_cases hv
    obtain rfl := Nat.succ.inj hlevels
    obtain ⟨below', hlevels', hkind'⟩ := Sample.isPlain_cases hw
    obtain rfl := Nat.succ.inj hlevels'
    rcases hkind with ⟨n, rfl⟩ | ⟨s, rfl⟩ | ⟨items, rfl, -, hitems⟩ <;>
      rcases hkind' with ⟨m, rfl⟩ | ⟨t, rfl⟩ | ⟨items', rfl, -, hitems'⟩ <;>
      simp only [Sample.tokens, List.cons_append, List.nil_append, List.cons.injEq, reduceCtorEq,
        Token.int.injEq, Token.text.injEq, Token.count.injEq, false_and] at h
    · exact ⟨by rw [h.1], h.2⟩
    · exact ⟨by rw [h.1], h.2⟩
    · obtain ⟨rfl, hr⟩ := items_eq_of_tokens ih h.1 hitems hitems' h.2
      exact ⟨rfl, hr⟩

theorem tokens_injective {v w : Sample} (hv : v.isPlain levels = true)
    (hw : w.isPlain levels = true) (h : v.tokens = w.tokens) : v = w := by
  have happend : v.tokens ++ [] = w.tokens ++ [] := by rw [h]
  exact (eq_of_tokens_append hv hw happend).1

/-! ## Samples that are encoded alike -/

/-- Two samples made of numbers, texts and lists, not too deep and not too long, are encoded alike
just if they are the same or the tokens of one are those of the other split otherwise. Samples whose
tokens are clear are kept apart. -/
theorem encode_eq_iff_resplits (marks : Marks) {v w : Sample} (hv : v.isPlain maxLevels = true)
    (hw : w.isPlain maxLevels = true) :
    (encode marks maxLevels v = encode marks maxLevels w ↔
      v = w ∨ Resplits v.tokens w.tokens ∨ Resplits w.tokens v.tokens) ∧
    (Clear v.tokens → Clear w.tokens → encode marks maxLevels v = encode marks maxLevels w →
      v = w) := by
  have hiff : encode marks maxLevels v = encode marks maxLevels w ↔
      v = w ∨ Resplits v.tokens w.tokens ∨ Resplits w.tokens v.tokens := by
    rw [encode_eq_written marks hv, encode_eq_written marks hw]
    constructor
    · intro h
      exact (eq_or_resplits h).imp_left (tokens_injective hv hw)
    · rintro (rfl | h | h)
      · rfl
      · exact h.written_eq
      · exact h.written_eq.symm
  refine ⟨hiff, fun hclear hclear' h => ?_⟩
  rcases hiff.mp h with heq | hsplit | hsplit
  · exact heq
  · exact absurd hsplit (hclear.not_resplits hclear')
  · exact absurd hsplit (hclear'.not_resplits hclear)

/-- One and twenty-three are encoded like twelve and three, so that they have the same fingerprint.
Where a text stands between the numbers, lists that differ are kept apart. -/
theorem neighbours_encoded_alike :
    let marks : Marks := ⟨utf8 "...", fun _ => utf8 "..."⟩
    ((Sample.list [.int 1, .int 23]).isPlain maxLevels = true ∧
      (Sample.list [.int 12, .int 3]).isPlain maxLevels = true ∧
      fingerprint marks (.list [.int 1, .int 23]) = fingerprint marks (.list [.int 12, .int 3])) ∧
    encode marks maxLevels (.list [.text "a", .int 12]) ≠
      encode marks maxLevels (.list [.text "a", .int 3]) := by
  intro marks
  have hv : (Sample.list [.int 1, .int 23]).isPlain maxLevels = true := by decide
  have hw : (Sample.list [.int 12, .int 3]).isPlain maxLevels = true := by decide
  have hsplit : Resplits (Sample.list [.int 1, .int 23]).tokens
      (Sample.list [.int 12, .int 3]).tokens := by
    refine ⟨[.count 2], .int 1, .int 12, [50], [.int 23], [.int 3], by decide, ?_, ?_, ?_, ?_⟩
    · rfl
    · rfl
    · simp only [Token.bytes, utf8_eq]
      decide
    · simp only [written, List.flatMap_cons, List.flatMap_nil, Token.bytes, utf8_eq]
      decide
  have hclear (n : Int) : Clear (Sample.list [.text "a", .int n]).tokens := by
    refine ⟨by simp [Sample.tokens, tokensOfAll, Token.runsInto], ?_⟩
    intro s hs
    simp only [Sample.tokens, tokensOfAll, List.mem_cons, List.mem_append, reduceCtorEq,
      Token.text.injEq, List.not_mem_nil, or_false, false_or] at hs
    rw [hs, utf8_eq]
    decide +kernel
  refine ⟨⟨hv, hw, ?_⟩, ?_⟩
  · unfold fingerprint
    rw [(encode_eq_iff_resplits marks hv hw).1.mpr (.inr (.inl hsplit))]
  · intro h
    have heq := (encode_eq_iff_resplits marks (by decide) (by decide)).2 (hclear 12) (hclear 3) h
    simp at heq

end RobotConsole.Measure
