import Mathlib.Data.List.Basic
import Mathlib.Tactic.Common

/-! The replies of an SMTP server, as `smtp_connection` reads them: byte by byte to the end of a line, line
    by line to the end of the reply. A reply has one code, which every line of it begins with.

                 "-"             "-"
        line ───────▶ line ───────▶ …  ───▶ line        at most 32 lines,
                                  " " ▼                 each at most 4096 bytes
                                    code

    In the form of the protocol the last line may also be the code alone, without a space. The parser takes
    a space to be there. -/

namespace Imm.Smtp

open List Nat

abbrev Bytes := List UInt8

def CR : UInt8 := 13
def LF : UInt8 := 10
def SP : UInt8 := 32
def hyphen : UInt8 := 45

def disconnected : String := "SMTP peer disconnected"

/-- `line.size() < 4096` -/
def maxLine : ℕ := 4096

/-- The inner loop of `reply`: bytes are added to the line up to LF, or until it is long enough. The input
    is what the peer sends before it disconnects. -/
def readLine (line : Bytes) : Bytes → Except String Bytes × Bytes
  | [] => if line.length < maxLine then (.error disconnected, []) else (.ok line, [])
  | byte :: input =>
    if line.length < maxLine then
      if byte = LF then (.ok (line ++ [byte]), input) else readLine (line ++ [byte]) input
    else (.ok line, byte :: input)

/-- `line[index]` -/
def byteAt (line : Bytes) (index : ℕ) : ℕ := (line.getD index 0).toNat

/-- What a line must not be. -/
def invalid (line : Bytes) : Prop :=
  line.length < 5 ∨ ¬ [CR, LF] <:+ line ∨ byteAt line 0 < '2'.toNat ∨ byteAt line 0 > '5'.toNat ∨
    byteAt line 1 < '0'.toNat ∨ byteAt line 1 > '9'.toNat ∨ byteAt line 2 < '0'.toNat ∨
    byteAt line 2 > '9'.toNat

instance (line : Bytes) : Decidable (invalid line) := inferInstanceAs (Decidable (_ ∨ _))

def code (line : Bytes) : ℕ :=
  (byteAt line 0 - '0'.toNat) * 100 + (byteAt line 1 - '0'.toNat) * 10 + (byteAt line 2 - '0'.toNat)

/-- The outer loop of `reply`, with the lines that may still come and the code so far. -/
def replyFrom : ℕ → ℕ → Bytes → Except String ℕ × Bytes
  | 0, _, input => (.error "SMTP response too long", input)
  | lines + 1, status, input =>
    match readLine [] input with
    | (.error e, rest) => (.error e, rest)
    | (.ok line, rest) =>
      if invalid line then (.error "invalid SMTP response", rest)
      else if status ≠ 0 ∧ status ≠ code line then (.error "inconsistent SMTP multiline response", rest)
      else if line.getD 3 0 = SP then (.ok (code line), rest)
      else if line.getD 3 0 ≠ hyphen then (.error "invalid SMTP continuation", rest)
      else replyFrom lines (code line) rest

/-- The code or the exception, and the bytes that were not read. -/
def reply (input : Bytes) : Except String ℕ × Bytes := replyFrom 32 0 input

/-! ### The form of a reply -/

/-- Three digits. -/
def digits (code : ℕ) : Bytes :=
  [UInt8.ofNat (48 + code / 100), UInt8.ofNat (48 + code / 10 % 10), UInt8.ofNat (48 + code % 10)]

/-- A line that begins with a code and ends with CRLF. -/
def codeLine (code : ℕ) (body : Bytes) : Bytes := digits code ++ body ++ [CR, LF]

/-- `*( code "-" [text] CRLF ) code [SP text] CRLF` -/
structure SmtpReply where
  code : ℕ
  texts : List Bytes
  last : Option Bytes
  deriving DecidableEq, Repr

namespace SmtpReply

def continuation (code : ℕ) (text : Bytes) : Bytes := codeLine code (hyphen :: text)

def lastLine (code : ℕ) : Option Bytes → Bytes
  | none => codeLine code []
  | some text => codeLine code (SP :: text)

def lines (r : SmtpReply) : List Bytes := r.texts.map (continuation r.code) ++ [lastLine r.code r.last]

def encode (r : SmtpReply) : Bytes := r.lines.flatten

/-- LF only ends lines, of which there are not too many, nor too long ones. -/
structure WellFormed (r : SmtpReply) : Prop where
  code : 200 ≤ r.code ∧ r.code ≤ 599
  count : r.lines.length ≤ 32
  length : ∀ line ∈ r.lines, line.length ≤ maxLine
  texts : ∀ text ∈ r.texts, LF ∉ text
  last : ∀ text ∈ r.last, LF ∉ text

end SmtpReply

/-! ### One line -/

variable {text line : Bytes} {texts : List Bytes}

theorem readLine_line (htext : LF ∉ text) (line : Bytes)
    (hlen : line.length + text.length < maxLine) (rest : Bytes) :
    readLine line (text ++ LF :: rest) = (.ok (line ++ text ++ [LF]), rest) := by
  induction text generalizing line with
  | nil =>
    have hshort : line.length < maxLine := by simpa using hlen
    simp [readLine, hshort]
  | cons byte text ih =>
    simp only [length_cons] at hlen
    obtain ⟨hbyte, htext⟩ := not_or.1 (mem_cons.not.1 htext)
    have hshort : line.length < maxLine := by omega
    have hrest := ih htext (line ++ [byte]) (by simp only [length_append, length_singleton]; omega)
    rw [cons_append, readLine, if_pos hshort, if_neg (Ne.symm hbyte), hrest]
    simp

theorem readLine_cases (input line : Bytes) (hline : line.length ≤ maxLine) :
    (∃ text rest, input = text ++ LF :: rest ∧ LF ∉ text ∧ line.length + text.length < maxLine ∧
      readLine line input = (.ok (line ++ text ++ [LF]), rest)) ∨
    (∃ text rest, input = text ++ rest ∧ LF ∉ text ∧ line.length + text.length = maxLine ∧
      readLine line input = (.ok (line ++ text), rest)) ∨
    LF ∉ input ∧ line.length + input.length < maxLine ∧ readLine line input = (.error disconnected, []) := by
  induction input generalizing line with
  | nil =>
    rcases Nat.lt_or_eq_of_le hline with hshort | hfull
    · exact .inr (.inr ⟨not_mem_nil, hshort, by simp [readLine, hshort]⟩)
    · exact .inr (.inl ⟨[], [], rfl, not_mem_nil, by simpa using hfull, by simp [readLine, hfull]⟩)
  | cons byte input ih =>
    rcases Nat.lt_or_eq_of_le hline with hshort | hfull
    · rcases eq_or_ne byte LF with rfl | hbyte
      · exact .inl ⟨[], input, rfl, not_mem_nil, by simpa using hshort, by simp [readLine, hshort]⟩
      have hstep : readLine line (byte :: input) = readLine (line ++ [byte]) input := by
        rw [readLine, if_pos hshort, if_neg hbyte]
      have hnot : ∀ {text}, LF ∉ text → LF ∉ byte :: text := fun h =>
        mem_cons.not.2 (not_or.2 ⟨Ne.symm hbyte, h⟩)
      have hone : (line ++ [byte]).length = line.length + 1 := by simp
      rcases ih (line ++ [byte]) (by omega) with
        ⟨text, rest, rfl, htext, hlen, hread⟩ | ⟨text, rest, rfl, htext, hlen, hread⟩ | ⟨hinput, hlen, hread⟩
      · refine .inl ⟨byte :: text, rest, rfl, hnot htext, ?_, ?_⟩
        · simp only [length_cons]
          omega
        · rw [hstep, hread]
          simp
      · refine .inr (.inl ⟨byte :: text, rest, rfl, hnot htext, ?_, ?_⟩)
        · simp only [length_cons]
          omega
        · rw [hstep, hread]
          simp
      · refine .inr (.inr ⟨hnot hinput, ?_, ?_⟩)
        · simp only [length_cons]
          omega
        · rw [hstep, hread]
    · refine .inr (.inl ⟨[], byte :: input, rfl, not_mem_nil, by simpa using hfull, ?_⟩)
      simp [readLine, hfull]

/-! ### The code of a line -/

variable {c : ℕ} {body : Bytes}

theorem toNat_digit {n : ℕ} (h : n < 10) : (UInt8.ofNat (48 + n)).toNat = 48 + n := by
  rw [UInt8.toNat_ofNat']
  omega

theorem byteAt_codeLine (hc : 200 ≤ c ∧ c ≤ 599) (body : Bytes) :
    byteAt (codeLine c body) 0 = 48 + c / 100 ∧ byteAt (codeLine c body) 1 = 48 + c / 10 % 10 ∧
      byteAt (codeLine c body) 2 = 48 + c % 10 :=
  ⟨toNat_digit (by omega), toNat_digit (by omega), toNat_digit (by omega)⟩

theorem code_codeLine (hc : 200 ≤ c ∧ c ≤ 599) : code (codeLine c body) = c := by
  obtain ⟨h0, h1, h2⟩ := byteAt_codeLine hc body
  rw [code, h0, h1, h2]
  simp only [Char.reduceToNat]
  omega

theorem not_invalid_codeLine (hc : 200 ≤ c ∧ c ≤ 599) : ¬ invalid (codeLine c body) := by
  obtain ⟨h0, h1, h2⟩ := byteAt_codeLine hc body
  have hsuffix : [CR, LF] <:+ codeLine c body := suffix_append _ _
  have hlen : 5 ≤ (codeLine c body).length := by
    simp only [codeLine, digits, length_append, length_cons]
    omega
  simp only [invalid, h0, h1, h2, hsuffix, not_true_eq_false, false_or, Char.reduceToNat]
  omega

theorem digits_eq {a b d : UInt8} (ha : 50 ≤ a.toNat ∧ a.toNat ≤ 53) (hb : 48 ≤ b.toNat ∧ b.toNat ≤ 57)
    (hd : 48 ≤ d.toNat ∧ d.toNat ≤ 57) :
    digits ((a.toNat - 48) * 100 + (b.toNat - 48) * 10 + (d.toNat - 48)) = [a, b, d] := by
  have hdigit : ∀ {n : ℕ} {x : UInt8}, n = x.toNat → UInt8.ofNat n = x := by
    rintro n x rfl
    exact UInt8.ofNat_toNat
  rw [digits, hdigit (x := a) (by omega), hdigit (x := b) (by omega), hdigit (x := d) (by omega)]

theorem codeLine_of_valid (h : ¬ invalid line) :
    ∃ c body, (200 ≤ c ∧ c ≤ 599) ∧ line = codeLine c body := by
  simp only [invalid, not_or, not_not, gt_iff_lt, Nat.not_lt, Char.reduceToNat] at h
  obtain ⟨hlen, ⟨front, rfl⟩, h0, h0', h1, h1', h2, h2'⟩ := h
  -- the first three bytes stand before CRLF
  obtain ⟨a, b, d, body, rfl⟩ : ∃ a b d body, front = a :: b :: d :: body := by
    rcases front with _ | ⟨a, _ | ⟨b, _ | ⟨d, body⟩⟩⟩
    · simp at hlen
    · simp at hlen
    · simp at hlen
    · exact ⟨a, b, d, body, rfl⟩
  simp only [byteAt, cons_append, getD_cons_zero, getD_cons_succ] at h0 h0' h1 h1' h2 h2'
  refine ⟨(a.toNat - 48) * 100 + (b.toNat - 48) * 10 + (d.toNat - 48), body, by omega, ?_⟩
  rw [codeLine, digits_eq ⟨h0, h0'⟩ ⟨h1, h1'⟩ ⟨h2, h2'⟩]
  rfl

theorem LF_notMem_digits (hc : c ≤ 599) : LF ∉ digits c := by
  have hne : ∀ {n : ℕ}, n < 10 → LF ≠ UInt8.ofNat (48 + n) := by
    intro n hn h
    have := congrArg UInt8.toNat h
    rw [toNat_digit hn] at this
    change 10 = _ at this
    omega
  simp only [digits, mem_cons, not_mem_nil, or_false, not_or]
  exact ⟨hne (by omega), hne (by omega), hne (by omega)⟩

/-! ### One turn of the outer loop -/

variable {n status c' : ℕ} {input rest : Bytes}

/-- What is done about a line that begins with a code: the byte after the code decides. -/
def onLine (n status c : ℕ) (mark : UInt8) (rest : Bytes) : Except String ℕ × Bytes :=
  if status ≠ 0 ∧ status ≠ c then (.error "inconsistent SMTP multiline response", rest)
  else if mark = SP then (.ok c, rest)
  else if mark ≠ hyphen then (.error "invalid SMTP continuation", rest)
  else replyFrom n c rest

theorem replyFrom_codeLine (hc : 200 ≤ c ∧ c ≤ 599) (hbody : LF ∉ body)
    (hlen : (codeLine c body).length ≤ maxLine) :
    replyFrom (n + 1) status (codeLine c body ++ rest) = onLine n status c (body.headD CR) rest := by
  have htext : LF ∉ digits c ++ body ++ [CR] := by
    simp only [mem_append, mem_singleton, not_or]
    exact ⟨⟨LF_notMem_digits hc.2, hbody⟩, by decide⟩
  have hsplit : codeLine c body ++ rest = (digits c ++ body ++ [CR]) ++ LF :: rest := by simp [codeLine]
  have hline : [] ++ (digits c ++ body ++ [CR]) ++ [LF] = codeLine c body := by simp [codeLine]
  have hread := readLine_line htext [] (by
    simp only [codeLine, length_append, length_cons, length_nil] at hlen ⊢
    omega) rest
  have hmark : (codeLine c body).getD 3 0 = body.headD CR := by
    cases body <;> rfl
  rw [hline] at hread
  rw [replyFrom, hsplit, hread]
  simp only [if_neg (not_invalid_codeLine hc), code_codeLine hc, hmark]
  rfl

theorem replyFrom_cases (n status : ℕ) (input : Bytes) :
    (∃ c body rest, (200 ≤ c ∧ c ≤ 599) ∧ LF ∉ body ∧ (codeLine c body).length ≤ maxLine ∧
      input = codeLine c body ++ rest) ∨
    ∃ e rest, replyFrom (n + 1) status input = (.error e, rest) := by
  rcases readLine_cases input [] (zero_le _) with
    ⟨text, rest, rfl, htext, hlen, hread⟩ | ⟨text, rest, rfl, htext, hlen, hread⟩ | ⟨hinput, hlen, hread⟩
  · by_cases hvalid : invalid ([] ++ text ++ [LF])
    · exact .inr ⟨_, rest, by rw [replyFrom, hread]; exact if_pos hvalid⟩
    obtain ⟨c, body, hc, hline⟩ := codeLine_of_valid hvalid
    rw [nil_append] at hline
    have hsplit : text ++ [LF] = digits c ++ body ++ [CR] ++ [LF] := by
      rw [hline]
      simp [codeLine]
    have htext' : text = digits c ++ body ++ [CR] := append_cancel_right hsplit
    refine .inl ⟨c, body, rest, hc, fun h => htext ?_, ?_, ?_⟩
    · rw [htext']
      simp [h]
    · rw [← hline, length_append]
      simpa [succ_le_iff] using hlen
    · rw [← hline]
      simp
  · have hinvalid : invalid ([] ++ text) := by
      refine .inr (.inl fun hsuffix => htext ?_)
      exact hsuffix.subset (by simp)
    exact .inr ⟨_, rest, by rw [replyFrom, hread]; exact if_pos hinvalid⟩
  · exact .inr ⟨_, [], by rw [replyFrom, hread]⟩

/-! ### What is accepted -/

theorem onLine_ok {mark : UInt8} (h : onLine n status c mark input = (.ok c', rest)) :
    (status = 0 ∨ status = c) ∧
      (mark = SP ∧ c = c' ∧ input = rest ∨ mark = hyphen ∧ replyFrom n c input = (.ok c', rest)) := by
  unfold onLine at h
  split at h
  · cases h
  refine ⟨by tauto, ?_⟩
  split at h
  · rename_i hmark
    cases h
    exact .inl ⟨hmark, rfl, rfl⟩
  split at h
  · cases h
  rename_i hmark
  exact .inr ⟨not_not.1 hmark, h⟩

/-- Texts that make a reply with this code, the last line of which has a space. -/
structure Spaced (c : ℕ) (texts : List Bytes) (text : Bytes) : Prop where
  code : 200 ≤ c ∧ c ≤ 599
  texts : ∀ t ∈ texts, LF ∉ t ∧ (SmtpReply.continuation c t).length ≤ maxLine
  text : LF ∉ text ∧ (codeLine c (SP :: text)).length ≤ maxLine

theorem LF_notMem_cons {mark : UInt8} (hmark : LF ≠ mark) (h : LF ∉ text) : LF ∉ mark :: text :=
  mem_cons.not.2 (not_or.2 ⟨hmark, h⟩)

/-- By induction on the lines that may still come: a line with a hyphen is followed by the rest of the reply,
    and the first with a space is the last. -/
theorem replyFrom_ok_iff :
    replyFrom n status input = (.ok c, rest) ↔
      (status = 0 ∨ status = c) ∧ ∃ texts text, texts.length < n ∧ Spaced c texts text ∧
        input = (texts.map (SmtpReply.continuation c)).flatten ++ codeLine c (SP :: text) ++ rest := by
  induction n generalizing status input with
  | zero => simp [replyFrom]
  | succ n ih =>
    constructor
    · intro h
      rcases replyFrom_cases n status input with ⟨c', body, rest', hc', hbody, hlen, rfl⟩ | ⟨e, rest', herror⟩
      · rw [replyFrom_codeLine hc' hbody hlen] at h
        obtain ⟨hstatus, ⟨hmark, rfl, rfl⟩ | ⟨hmark, hrest⟩⟩ := onLine_ok h
        · obtain ⟨text, rfl⟩ : ∃ text, body = SP :: text := by
            cases body with
            | nil => exact absurd hmark (by decide)
            | cons b text => exact ⟨text, congrArg (· :: text) hmark⟩
          refine ⟨hstatus, [], text, succ_pos n, ⟨hc', by simp, ?_, hlen⟩, rfl⟩
          exact fun htext => hbody (mem_cons_of_mem _ htext)
        · obtain ⟨text, rfl⟩ : ∃ text, body = hyphen :: text := by
            cases body with
            | nil => exact absurd hmark (by decide)
            | cons b text => exact ⟨text, congrArg (· :: text) hmark⟩
          obtain ⟨hsame, texts, last, hcount, hspaced, rfl⟩ := ih.1 hrest
          obtain rfl := hsame.resolve_left (by omega)
          refine ⟨hstatus, text :: texts, last, succ_lt_succ hcount, ⟨hc', ?_, hspaced.text⟩, ?_⟩
          · intro t ht
            rcases mem_cons.1 ht with rfl | ht
            · exact ⟨fun htext => hbody (mem_cons_of_mem _ htext), hlen⟩
            · exact hspaced.texts t ht
          · simp [SmtpReply.continuation]
      · rw [herror] at h
        cases h
    · rintro ⟨hstatus, texts, text, hcount, hspaced, rfl⟩
      have hagrees : ¬ (status ≠ 0 ∧ status ≠ c) := by tauto
      cases texts with
      | nil =>
        rw [map_nil, flatten_nil, nil_append,
          replyFrom_codeLine hspaced.code (LF_notMem_cons (by decide) hspaced.text.1) hspaced.text.2, onLine,
          if_neg hagrees, headD_cons, if_pos rfl]
      | cons t texts =>
        obtain ⟨ht, htlen⟩ := hspaced.texts t mem_cons_self
        rw [map_cons, flatten_cons, append_assoc, append_assoc, ← append_assoc _ _ rest,
          SmtpReply.continuation, replyFrom_codeLine hspaced.code (LF_notMem_cons (by decide) ht) htlen, onLine,
          if_neg hagrees, headD_cons, if_neg (by decide), if_neg (by decide)]
        refine ih.2 ⟨.inr rfl, texts, text, lt_of_succ_lt_succ hcount, ?_, rfl⟩
        exact ⟨hspaced.code, fun t ht => hspaced.texts t (mem_cons_of_mem _ ht), hspaced.text⟩

theorem SmtpReply.encode_eq (r : SmtpReply) :
    r.encode = (r.texts.map (continuation r.code)).flatten ++ lastLine r.code r.last := by
  simp [encode, lines]

theorem SmtpReply.WellFormed.spaced
    (h : (⟨c, texts, some text⟩ : SmtpReply).WellFormed) : texts.length < 32 ∧ Spaced c texts text := by
  refine ⟨by simpa [lines, succ_le_iff] using h.count, h.code, fun t ht => ⟨h.texts t ht, ?_⟩,
    h.last text rfl, ?_⟩
  · exact h.length _ (mem_append_left _ (mem_map_of_mem ht))
  · exact h.length _ (mem_append_right _ (mem_singleton_self _))

theorem Spaced.wellFormed (h : Spaced c texts text) (hcount : texts.length < 32) :
    (⟨c, texts, some text⟩ : SmtpReply).WellFormed where
  code := h.code
  count := by simpa [SmtpReply.lines, succ_le_iff] using hcount
  length := by
    intro line hline
    rcases mem_append.1 hline with hline | hline
    · obtain ⟨t, ht, rfl⟩ := mem_map.1 hline
      exact (h.texts t ht).2
    rw [mem_singleton.1 hline]
    exact h.text.2
  texts := fun t ht => (h.texts t ht).1
  last := by
    rintro t ⟨⟩
    exact h.text.1

/-- What `reply` accepts: replies the last line of which has a space. -/
theorem reply_ok_iff :
    reply input = (.ok c, rest) ↔
      ∃ texts text, (⟨c, texts, some text⟩ : SmtpReply).WellFormed ∧
        input = (⟨c, texts, some text⟩ : SmtpReply).encode ++ rest := by
  rw [reply, replyFrom_ok_iff]
  constructor
  · rintro ⟨-, texts, text, hcount, hspaced, rfl⟩
    exact ⟨texts, text, hspaced.wellFormed hcount, by rw [SmtpReply.encode_eq]; rfl⟩
  · rintro ⟨texts, text, hr, rfl⟩
    obtain ⟨hcount, hspaced⟩ := hr.spaced
    exact ⟨.inl rfl, texts, text, hcount, hspaced, by rw [SmtpReply.encode_eq]; rfl⟩

/-- A reply whose last line is the code alone is refused, however good the lines before it are. -/
theorem replyFrom_bare (hc : 200 ≤ c ∧ c ≤ 599) (hcount : texts.length < n)
    (htexts : ∀ t ∈ texts, LF ∉ t ∧ (SmtpReply.continuation c t).length ≤ maxLine)
    (hstatus : status = 0 ∨ status = c) (rest : Bytes) :
    replyFrom n status ((texts.map (SmtpReply.continuation c)).flatten ++ codeLine c [] ++ rest) =
      (.error "invalid SMTP continuation", rest) := by
  have hagrees : ∀ {status : ℕ}, status = 0 ∨ status = c → ¬ (status ≠ 0 ∧ status ≠ c) := by tauto
  induction texts generalizing n status with
  | nil =>
    obtain ⟨n, rfl⟩ := Nat.exists_eq_succ_of_ne_zero (Nat.ne_of_gt hcount)
    have hlen : (codeLine c []).length ≤ maxLine := show 5 ≤ 4096 by decide
    rw [map_nil, flatten_nil, nil_append, replyFrom_codeLine hc not_mem_nil hlen, onLine,
      if_neg (hagrees hstatus), if_neg (by decide), if_pos (by decide)]
  | cons t texts ih =>
    obtain ⟨n, rfl⟩ := Nat.exists_eq_succ_of_ne_zero (Nat.ne_of_gt (Nat.zero_lt_of_lt hcount))
    obtain ⟨ht, htlen⟩ := htexts t mem_cons_self
    rw [map_cons, flatten_cons, append_assoc, append_assoc, ← append_assoc _ _ rest,
      SmtpReply.continuation, replyFrom_codeLine hc (LF_notMem_cons (by decide) ht) htlen, onLine,
      if_neg (hagrees hstatus), headD_cons, if_neg (by decide), if_neg (by decide)]
    exact ih (lt_of_succ_lt_succ hcount) (fun t ht => htexts t (mem_cons_of_mem _ ht)) (.inr rfl)

/-! ### What is read -/

/-- LF ends every line, unless it is the last that was read. -/
structure Lines (lines : List Bytes) : Prop where
  length : ∀ line ∈ lines, line.length ≤ maxLine
  inside : ∀ line ∈ lines, LF ∉ line.dropLast
  ended : ∀ line ∈ lines.dropLast, line.getLast? = some LF

theorem Lines.cons (htext : LF ∉ text) (hlen : text.length < maxLine) {lines : List Bytes}
    (h : Lines lines) : Lines ((text ++ [LF]) :: lines) where
  length := by
    intro line hline
    rcases mem_cons.1 hline with rfl | hline
    · simpa [succ_le_iff] using hlen
    · exact h.length line hline
  inside := by
    intro line hline
    rcases mem_cons.1 hline with rfl | hline
    · rwa [dropLast_concat]
    · exact h.inside line hline
  ended := by
    intro line hline
    cases lines with
    | nil => simp at hline
    | cons next lines =>
      rcases mem_cons.1 hline with rfl | hline
      · simp
      · exact h.ended line hline

theorem Lines.one (htext : LF ∉ text) (hlen : text.length ≤ maxLine) : Lines [text] where
  length := by simpa using hlen
  inside := by simpa using fun h => htext (dropLast_subset _ h)
  ended := by simp

theorem Lines.nil : Lines [] := ⟨by simp, by simp, by simp⟩

theorem replyFrom_turn (n status : ℕ) {rest : Bytes} (hread : readLine [] input = (.ok line, rest)) :
    (∃ e, replyFrom (n + 1) status input = (.error e, rest) ∧ e ≠ disconnected) ∨
      (∃ c, replyFrom (n + 1) status input = (.ok c, rest)) ∨
      ∃ c, replyFrom (n + 1) status input = replyFrom n c rest := by
  rw [replyFrom, hread]
  dsimp only
  split
  · exact .inl ⟨_, rfl, by decide⟩
  split
  · exact .inl ⟨_, rfl, by decide⟩
  split
  · exact .inr (.inl ⟨_, rfl⟩)
  split
  · exact .inl ⟨_, rfl, by decide⟩
  · exact .inr (.inr ⟨_, rfl⟩)

theorem replyFrom_lines (n status : ℕ) (input : Bytes) :
    ∃ lines, input = lines.flatten ++ (replyFrom n status input).2 ∧ lines.length ≤ n ∧ Lines lines := by
  induction n generalizing status input with
  | zero => exact ⟨[], rfl, Nat.le_refl _, .nil⟩
  | succ n ih =>
    rcases readLine_cases input [] (zero_le _) with
      ⟨text, rest, rfl, htext, hlen, hread⟩ | ⟨text, rest, rfl, htext, hlen, hread⟩ | ⟨hinput, hlen, hread⟩
    · have hlen : text.length < maxLine := by simpa using hlen
      rcases replyFrom_turn n status hread with ⟨e, h, -⟩ | ⟨c, h⟩ | ⟨c, h⟩
      · exact ⟨[text ++ [LF]], by simp [h], by simp, .cons htext hlen .nil⟩
      · exact ⟨[text ++ [LF]], by simp [h], by simp, .cons htext hlen .nil⟩
      obtain ⟨lines, hlines, hcount, hok⟩ := ih c rest
      refine ⟨(text ++ [LF]) :: lines, ?_, succ_le_succ hcount, .cons htext hlen hok⟩
      rw [h]
      conv_lhs => rw [hlines]
      simp
    · -- a line without LF is invalid
      have hinvalid : invalid ([] ++ text) := .inr (.inl fun hsuffix => htext (hsuffix.subset (by simp)))
      have h : replyFrom (n + 1) status (text ++ rest) = (.error "invalid SMTP response", rest) := by
        rw [replyFrom, hread]
        exact if_pos hinvalid
      exact ⟨[text], by simp [h], by simp, .one htext (Nat.le_of_eq (by simpa using hlen))⟩
    · have h : replyFrom (n + 1) status input = (.error disconnected, []) := by rw [replyFrom, hread]
      exact ⟨[input], by simp [h], by simp, .one hinput (Nat.le_of_lt (by simpa using hlen))⟩

theorem readLine_append {input : Bytes} (more : Bytes) (h : (readLine line input).1 ≠ .error disconnected) :
    readLine line (input ++ more) = ((readLine line input).1, (readLine line input).2 ++ more) := by
  induction input generalizing line with
  | nil =>
    by_cases hshort : line.length < maxLine
    · simp [readLine, hshort] at h
    · cases more <;> simp [readLine, hshort]
  | cons byte input ih =>
    by_cases hshort : line.length < maxLine
    · by_cases hbyte : byte = LF
      · simp [readLine, hshort, hbyte]
      have hstep : ∀ input, readLine line (byte :: input) = readLine (line ++ [byte]) input := by
        intro input
        rw [readLine, if_pos hshort, if_neg hbyte]
      rw [hstep] at h
      rw [cons_append, hstep, hstep, ih h]
    · simp [readLine, hshort]

/-- What the peer sends after a reply does not matter. -/
theorem replyFrom_append (more : Bytes) (h : (replyFrom n status input).1 ≠ .error disconnected) :
    replyFrom n status (input ++ more) =
      ((replyFrom n status input).1, (replyFrom n status input).2 ++ more) := by
  induction n generalizing status input with
  | zero => rfl
  | succ n ih =>
    rcases hread : readLine [] input with ⟨e | line, rest⟩
    · have herror : replyFrom (n + 1) status input = (.error e, rest) := by rw [replyFrom, hread]
      have he : e ≠ disconnected := by
        rintro rfl
        exact h (by rw [herror])
      have hended : (readLine [] input).1 ≠ .error disconnected := by simpa [hread] using he
      have hmore := readLine_append more hended
      rw [herror, replyFrom, hmore, hread]
    · have hended : (readLine [] input).1 ≠ .error disconnected := by simp [hread]
      have hmore := readLine_append more hended
      simp only [replyFrom, hread, hmore] at h ⊢
      split
      · rfl
      rename_i hvalid
      rw [if_neg hvalid] at h
      split
      · rfl
      rename_i hstatus
      rw [if_neg hstatus] at h
      split
      · rfl
      rename_i hspace
      rw [if_neg hspace] at h
      split
      · rfl
      rename_i hmark
      rw [if_neg hmark] at h
      exact ih h

/-- With enough bytes to read it does not matter whether the peer disconnects. -/
theorem replyFrom_enough (h : n * maxLine ≤ input.length) :
    (replyFrom n status input).1 ≠ .error disconnected := by
  induction n generalizing status input with
  | zero => simp [replyFrom, disconnected]
  | succ n ih =>
    rw [succ_mul] at h
    have hturn : ∀ line rest, readLine [] input = (.ok line, rest) → n * maxLine ≤ rest.length →
        (replyFrom (n + 1) status input).1 ≠ .error disconnected := by
      intro line rest hread hrest
      rcases replyFrom_turn n status hread with ⟨e, h, he⟩ | ⟨c, h⟩ | ⟨c, h⟩
      · simpa [h] using he
      · simp [h]
      rw [h]
      exact ih hrest
    rcases readLine_cases input [] (zero_le _) with
      ⟨text, rest, rfl, -, hlen, hread⟩ | ⟨text, rest, rfl, -, hlen, hread⟩ | ⟨-, hlen, -⟩
    · simp only [length_append, length_cons, length_nil] at h hlen
      exact hturn _ _ hread (by omega)
    · simp only [length_append, length_nil] at h hlen
      exact hturn _ _ hread (by omega)
    omega

/-! ### Replies -/

/-- The stream begins with a reply whose last line is the code alone. -/
def EndsBare (input : Bytes) : Prop :=
  ∃ c texts rest, (⟨c, texts, none⟩ : SmtpReply).WellFormed ∧
    input = (⟨c, texts, none⟩ : SmtpReply).encode ++ rest

theorem reply_bare (h : EndsBare input) : (reply input).1 = .error "invalid SMTP continuation" := by
  obtain ⟨c, texts, rest, hr, rfl⟩ := h
  have hcount : texts.length < 32 := by simpa [SmtpReply.lines, succ_le_iff] using hr.count
  have hlines := replyFrom_bare hr.code hcount (fun t ht =>
    ⟨hr.texts t ht, hr.length _ (mem_append_left _ (mem_map_of_mem ht))⟩) (.inl rfl) rest
  rw [reply, SmtpReply.encode_eq]
  exact congrArg Prod.fst hlines

/-- At most 32 lines of at most 4096 bytes are read, whatever the peer sends, and nothing of what follows
    the reply. Unless the last line of a reply is its code alone, `reply` returns the code of the reply that
    the stream begins with, having read just its bytes, and fails if there is none. -/
theorem reply_parses (input : Bytes) :
    (∃ lines, input = lines.flatten ++ (reply input).2 ∧ lines.length ≤ 32 ∧ Lines lines) ∧
    ((reply input).1 ≠ .error disconnected →
      ∀ more, reply (input ++ more) = ((reply input).1, (reply input).2 ++ more)) ∧
    (32 * 4096 ≤ input.length → (reply input).1 ≠ .error disconnected) ∧
    (¬ EndsBare input →
      (∀ c rest, reply input = (.ok c, rest) ↔
        ∃ r : SmtpReply, r.WellFormed ∧ r.code = c ∧ input = r.encode ++ rest) ∧
      ((∀ (r : SmtpReply) rest, r.WellFormed → input ≠ r.encode ++ rest) →
        ∃ e, (reply input).1 = .error e)) := by
  refine ⟨replyFrom_lines 32 0 input, fun h more => replyFrom_append more h, replyFrom_enough, fun hbare => ?_⟩
  have hiff : ∀ c rest, reply input = (.ok c, rest) ↔
      ∃ r : SmtpReply, r.WellFormed ∧ r.code = c ∧ input = r.encode ++ rest := by
    intro c rest
    rw [reply_ok_iff]
    constructor
    · rintro ⟨texts, text, hr, hinput⟩
      exact ⟨_, hr, rfl, hinput⟩
    · rintro ⟨⟨_, texts, last⟩, hr, rfl, hinput⟩
      cases last with
      | none => exact absurd ⟨_, texts, rest, hr, hinput⟩ hbare
      | some text => exact ⟨texts, text, hr, hinput⟩
  refine ⟨hiff, fun hnone => ?_⟩
  rcases hreply : reply input with ⟨e | c, rest⟩
  · exact ⟨e, rfl⟩
  obtain ⟨r, hr, -, hinput⟩ := (hiff c rest).1 hreply
  exact absurd hinput (hnone r rest hr)

/-- "250-ok" and "250 ", each with CRLF, and one byte more. -/
def twoLines : Bytes := (⟨250, [[111, 107]], some []⟩ : SmtpReply).encode ++ [0]

theorem reply_parses_twoLines :
    reply twoLines = (.ok 250, [0]) ∧ reply (twoLines ++ [1]) = (.ok 250, [0, 1]) ∧
      (reply (List.replicate (32 * 4096) 0)).1 ≠ .error disconnected ∧ ∃ e, (reply []).1 = .error e := by
  have hcomplete : ∀ {input}, (∃ c, (reply input).1 = .ok c) → ¬ EndsBare input := by
    rintro input ⟨c, hc⟩ hbare
    rw [reply_bare hbare] at hc
    cases hc
  obtain ⟨-, hmore, -, hform⟩ := reply_parses twoLines
  have htwo : reply twoLines = (.ok 250, [0]) := by
    refine ((hform (hcomplete ⟨250, by decide⟩)).1 250 [0]).2 ⟨_, ⟨?_, ?_, ?_, ?_, ?_⟩, rfl, rfl⟩ <;> decide
  have hempty : ∀ (r : SmtpReply) rest, [] ≠ r.encode ++ rest := by
    intro r rest h
    rw [SmtpReply.encode_eq] at h
    cases hlast : r.last <;> simp [hlast, SmtpReply.lastLine, codeLine, digits] at h
  obtain ⟨-, -, -, hnothing⟩ := reply_parses []
  refine ⟨htwo, ?_, (reply_parses _).2.2.1 (Nat.le_of_eq length_replicate.symm),
    (hnothing ?_).2 fun r rest _ => hempty r rest⟩
  · rw [hmore (by rw [htwo]; simp) [1], htwo]
    rfl
  · rintro ⟨c, texts, rest, -, h⟩
    exact hempty _ rest h

/-- "250" with CRLF is a reply of the protocol, and refused. -/
theorem reply_code_alone :
    (⟨250, [], none⟩ : SmtpReply).WellFormed ∧
      (⟨250, [], none⟩ : SmtpReply).encode = [50, 53, 48, CR, LF] ∧
      reply [50, 53, 48, CR, LF] = (.error "invalid SMTP continuation", []) ∧
      ¬ ∀ input c rest, reply input = (.ok c, rest) ↔
        ∃ r : SmtpReply, r.WellFormed ∧ r.code = c ∧ input = r.encode ++ rest := by
  have hwell : (⟨250, [], none⟩ : SmtpReply).WellFormed := by
    refine ⟨?_, ?_, ?_, ?_, ?_⟩ <;> decide
  refine ⟨hwell, by decide, by decide, fun h => ?_⟩
  have hok := (h [50, 53, 48, CR, LF] 250 []).2 ⟨_, hwell, rfl, by decide⟩
  exact absurd hok (by decide)

end Imm.Smtp
