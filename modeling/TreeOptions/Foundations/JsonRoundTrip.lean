import TreeOptions.Foundations.Json

/-!
# The JSON reader gives back what the writer wrote

The string literals come first: a machine state fed the escape of a character
completes exactly that character (`feed_escapeChar`), so a quoted text is read
back (`run_quote`, `run_quote_key`). Integers are read back next (`run_decimal`),
and the structural induction over a value puts the pieces together (`reads`).

The main results are about whole texts. The reader gives back what the writer
wrote (`loads_dumps`); a proper prefix of an object text is refused
(`loads_take_dumps_obj`); and two object texts side by side are refused
(`loads_dumps_obj_append`).
-/

set_option autoImplicit false

namespace TreeOptions.Json

theorem run_append (state : State) (first second : List Char) :
    run state (first ++ second) = (run state first).bind fun next => run next second := by
  induction first generalizing state with
  | nil => rfl
  | cons c rest ih =>
    simp only [List.cons_append, run, Option.bind_assoc]
    congr 1
    funext next
    exact ih next

/-! ## String literals -/

variable {state : StringState} {c : Char} {out : List Char}

theorem step_string {next : StringState} (stepped : state.next c = some (next, out))
    (inside : state = .text → c ≠ '"') (text : List Char) (stack : List Frame) :
    step (.string state text stack) c = some (.string next (text ++ out) stack) := by
  rw [step, stepped]
  · rfl
  · intro closes inText
    exact inside inText closes

theorem step_key {next : StringState} (stepped : state.next c = some (next, out))
    (inside : state = .text → c ≠ '"') (text : List Char) (done : List (String × Value))
    (stack : List Frame) :
    step (.key state text done stack) c = some (.key next (text ++ out) done stack) := by
  rw [step, stepped]
  · rfl
  · intro closes inText
    exact inside inText closes

/-- Characters inside a string literal: the state after them and the characters
they complete, none where one of them closes the literal or is refused. -/
def StringState.feed : StringState → List Char → Option (StringState × List Char)
  | state, [] => some (state, [])
  | .text, '"' :: _ => none
  | state, c :: rest =>
    (state.next c).bind fun (next, out) =>
      (next.feed rest).map fun (last, more) => (last, out ++ more)

theorem StringState.feed_cons {next : StringState} (stepped : state.next c = some (next, out))
    (inside : state = .text → c ≠ '"') (rest : List Char) :
    state.feed (c :: rest) = (next.feed rest).map fun (last, more) => (last, out ++ more) := by
  rw [StringState.feed]
  · rw [stepped]
    rfl
  · exact inside

theorem hexDigit_digitChar : ∀ d < 16, hexDigit (Nat.digitChar d) = some d := by
  decide

theorem StringState.feed_silent {next : StringState} (stepped : state.next c = some (next, []))
    (inside : state = .text → c ≠ '"') (rest : List Char) :
    state.feed (c :: rest) = next.feed rest := by
  rw [StringState.feed_cons stepped inside]
  simp

variable {last : StringState}

theorem feed_hex4 {n : ℕ} (bound : n < 0x10000) {reading : ℕ → ℕ → StringState}
    (inside : ∀ digits code, reading digits code ≠ .text)
    (reads : ∀ digits code c digit, digits < 3 → hexDigit c = some digit →
      (reading digits code).next c = some (reading (digits + 1) (16 * code + digit), []))
    (ends : ∀ c digit, hexDigit c = some digit → 16 * (n / 16) + digit = n →
      (reading 3 (n / 16)).next c = some (last, out)) (rest : List Char) :
    (reading 0 0).feed (hex4 n ++ rest) =
      (last.feed rest).map fun (final, more) => (final, out ++ more) := by
  have digit : ∀ m, hexDigit (Nat.digitChar (m % 16)) = some (m % 16) := fun m =>
    hexDigit_digitChar _ (Nat.mod_lt _ (by decide))
  have first : (reading 0 0).next (Nat.digitChar (n / 4096 % 16)) =
      some (reading 1 (n / 4096), []) := by
    rw [reads 0 0 _ _ (by decide) (digit _)]
    congr 3
    omega
  have second : (reading 1 (n / 4096)).next (Nat.digitChar (n / 256 % 16)) =
      some (reading 2 (n / 256), []) := by
    rw [reads 1 _ _ _ (by decide) (digit _)]
    congr 3
    omega
  have third : (reading 2 (n / 256)).next (Nat.digitChar (n / 16 % 16)) =
      some (reading 3 (n / 16), []) := by
    rw [reads 2 _ _ _ (by decide) (digit _)]
    congr 3
    omega
  rw [hex4, List.cons_append, List.cons_append, List.cons_append, List.cons_append,
    List.nil_append, StringState.feed_silent first fun h => absurd h (inside _ _),
    StringState.feed_silent second fun h => absurd h (inside _ _),
    StringState.feed_silent third fun h => absurd h (inside _ _),
    StringState.feed_cons (ends _ _ (digit n) (Nat.div_add_mod n 16)) fun h =>
      absurd h (inside _ _)]

theorem unicode_next {digits code digit : ℕ} (more : digits < 3) (read : hexDigit c = some digit) :
    (StringState.unicode digits code).next c =
      some (.unicode (digits + 1) (16 * code + digit), []) := by
  simp [StringState.next, read, more]

theorem lowUnicode_next {high digits code digit : ℕ} (more : digits < 3)
    (read : hexDigit c = some digit) :
    (StringState.lowUnicode high digits code).next c =
      some (.lowUnicode high (digits + 1) (16 * code + digit), []) := by
  simp [StringState.next, read, more]

theorem feed_backslash (rest : List Char) :
    StringState.feed .text ('\\' :: rest) = StringState.feed .escape rest :=
  StringState.feed_silent rfl (by simp) rest

theorem feed_escape_u (rest : List Char) :
    StringState.feed .escape ('u' :: rest) = StringState.feed (.unicode 0 0) rest :=
  StringState.feed_silent rfl (by simp) rest

theorem feed_low_u (high : ℕ) (rest : List Char) :
    StringState.feed (.lowEscape high) ('\\' :: 'u' :: rest) =
      StringState.feed (.lowUnicode high 0 0) rest :=
  (StringState.feed_silent rfl (by simp) _).trans (StringState.feed_silent rfl (by simp) rest)

/-- A code outside the surrogates is the character it names. -/
theorem feed_unicode {n : ℕ} (bound : n < 0x10000) (scalar : n < 0xd800 ∨ 0xe000 ≤ n)
    (rest : List Char) :
    StringState.feed .text ('\\' :: 'u' :: hex4 n ++ rest) =
      (StringState.feed .text rest).map fun (last, more) => (last, Char.ofNat n :: more) := by
  have notHigh : ¬(0xd800 ≤ n ∧ n < 0xdc00) := by omega
  have notLow : ¬(0xdc00 ≤ n ∧ n < 0xe000) := by omega
  have ends : ∀ c digit, hexDigit c = some digit → 16 * (n / 16) + digit = n →
      (StringState.unicode 3 (n / 16)).next c = some (.text, [Char.ofNat n]) := by
    intro c digit read code
    simp [StringState.next, read, code, if_neg notHigh, if_neg notLow]
  rw [List.cons_append, List.cons_append, feed_backslash, feed_escape_u,
    feed_hex4 bound (by simp) (fun _ _ _ _ => unicode_next) ends]
  rfl

/-- The two halves of a surrogate pair are the character it stands for. -/
theorem feed_pair {high low : ℕ} (isHigh : 0xd800 ≤ high ∧ high < 0xdc00)
    (isLow : 0xdc00 ≤ low ∧ low < 0xe000) (rest : List Char) :
    StringState.feed .text (('\\' :: 'u' :: hex4 high ++ '\\' :: 'u' :: hex4 low) ++ rest) =
      (StringState.feed .text rest).map fun (last, more) =>
        (last, Char.ofNat (0x10000 + (high - 0xd800) * 0x400 + (low - 0xdc00)) :: more) := by
  have highEnds : ∀ c digit, hexDigit c = some digit → 16 * (high / 16) + digit = high →
      (StringState.unicode 3 (high / 16)).next c = some (.lowEscape high, []) := by
    intro c digit read code
    simp [StringState.next, read, code, if_pos isHigh]
  have lowEnds : ∀ c digit, hexDigit c = some digit → 16 * (low / 16) + digit = low →
      (StringState.lowUnicode high 3 (low / 16)).next c =
        some (.text, [Char.ofNat (0x10000 + (high - 0xd800) * 0x400 + (low - 0xdc00))]) := by
    intro c digit read code
    simp [StringState.next, read, code, if_pos isLow]
  simp only [List.cons_append, List.append_assoc]
  rw [feed_backslash, feed_escape_u,
    feed_hex4 (by omega) (by simp) (fun _ _ _ _ => unicode_next) highEnds, feed_low_u,
    feed_hex4 (by omega) (by simp) (fun _ _ _ _ => lowUnicode_next) lowEnds]
  simp [Function.comp_def]

/-- How a character is written: by a short escape, as it is, or by its code. -/
theorem escapeChar_cases (c : Char) :
    (∃ letter, letter ≠ 'u' ∧ simpleEscape letter = some c ∧
        (0x20 ≤ letter.toNat ∧ letter.toNat ≤ 0x7e) ∧ escapeChar c = ['\\', letter]) ∨
      (c ≠ '"' ∧ c ≠ '\\' ∧ (0x20 ≤ c.toNat ∧ c.toNat ≤ 0x7e) ∧ escapeChar c = [c]) ∨
      (c.toNat < 0x10000 ∧ escapeChar c = '\\' :: 'u' :: hex4 c.toNat) ∨
      (¬ c.toNat < 0x10000 ∧
        escapeChar c = '\\' :: 'u' :: hex4 (0xd800 + (c.toNat - 0x10000) / 0x400) ++
          '\\' :: 'u' :: hex4 (0xdc00 + (c.toNat - 0x10000) % 0x400)) := by
  by_cases quote : c = '"'
  · exact .inl ⟨'"', by decide, by rw [quote]; rfl, by decide, if_pos quote⟩
  rw [escapeChar, if_neg quote]
  by_cases slash : c = '\\'
  · exact .inl ⟨'\\', by decide, by rw [slash]; rfl, by decide, if_pos slash⟩
  rw [if_neg slash]
  by_cases newline : c = '\n'
  · exact .inl ⟨'n', by decide, by rw [newline]; rfl, by decide, if_pos newline⟩
  rw [if_neg newline]
  by_cases carriage : c = '\r'
  · exact .inl ⟨'r', by decide, by rw [carriage]; rfl, by decide, if_pos carriage⟩
  rw [if_neg carriage]
  by_cases tab : c = '\t'
  · exact .inl ⟨'t', by decide, by rw [tab]; rfl, by decide, if_pos tab⟩
  rw [if_neg tab]
  by_cases form : c = '\x0c'
  · exact .inl ⟨'f', by decide, by rw [form]; rfl, by decide, if_pos form⟩
  rw [if_neg form]
  by_cases back : c = '\x08'
  · exact .inl ⟨'b', by decide, by rw [back]; rfl, by decide, if_pos back⟩
  rw [if_neg back]
  by_cases printable : 0x20 ≤ c.toNat ∧ c.toNat ≤ 0x7e
  · exact .inr (.inl ⟨quote, slash, printable, if_pos printable⟩)
  rw [if_neg printable]
  by_cases plane : c.toNat < 0x10000
  · exact .inr (.inr (.inl ⟨plane, if_pos plane⟩))
  · exact .inr (.inr (.inr ⟨plane, if_neg plane⟩))

theorem feed_escapeChar (c : Char) (rest : List Char) :
    StringState.feed .text (escapeChar c ++ rest) =
      (StringState.feed .text rest).map fun (last, more) => (last, c :: more) := by
  have scalar : c.toNat < 0xd800 ∨ 0xdfff < c.toNat ∧ c.toNat < 0x110000 := c.valid
  rcases escapeChar_cases c with ⟨letter, other, decoded, -, escaped⟩ |
    ⟨quote, slash, printable, escaped⟩ | ⟨plane, escaped⟩ | ⟨plane, escaped⟩
  · have stepped : StringState.escape.next letter = some (.text, [c]) := by
      simp [StringState.next, if_neg other, decoded]
    rw [escaped, List.cons_append, List.cons_append, List.nil_append, feed_backslash,
      StringState.feed_cons stepped nofun]
    rfl
  · have visible : ¬c.toNat < 0x20 := by omega
    have stepped : StringState.text.next c = some (.text, [c]) := by
      simp only [StringState.next, if_neg slash, if_neg visible]
    rw [escaped, List.cons_append, StringState.feed_cons stepped fun _ => quote]
    rfl
  · rw [escaped, feed_unicode plane (by omega), Char.ofNat_toNat]
  · rw [escaped, feed_pair (by omega) (by omega)]
    have whole : 0x10000 + (0xd800 + (c.toNat - 0x10000) / 0x400 - 0xd800) * 0x400 +
        (0xdc00 + (c.toNat - 0x10000) % 0x400 - 0xdc00) = c.toNat := by omega
    rw [whole, Char.ofNat_toNat]

/-- The escapes of a writer, each read back as its character. -/
def Feeds (escape : Char → List Char) : Prop :=
  ∀ c rest, StringState.feed .text (escape c ++ rest) =
    (StringState.feed .text rest).map fun (last, more) => (last, c :: more)

theorem feeds_escapeChar : Feeds escapeChar :=
  feed_escapeChar

section

variable {escape : Char → List Char} (feeds : Feeds escape)

include feeds

theorem feed_flatMap (text rest : List Char) :
    StringState.feed .text (text.flatMap escape ++ rest) =
      (StringState.feed .text rest).map fun (last, more) => (last, text ++ more) := by
  induction text with
  | nil => simp
  | cons c text ih =>
    rw [List.flatMap_cons, List.append_assoc, feeds, ih]
    simp [Function.comp_def]

theorem feed_text (text : List Char) :
    StringState.feed .text (text.flatMap escape) = some (.text, text) := by
  simpa [StringState.feed] using feed_flatMap feeds text []

end

theorem StringState.of_feed_cons {rest : List Char}
    (fed : state.feed (c :: rest) = some (last, out)) :
    (state = .text → c ≠ '"') ∧ ∃ next first more, state.next c = some (next, first) ∧
      next.feed rest = some (last, more) ∧ out = first ++ more := by
  by_cases closes : state = .text ∧ c = '"'
  · obtain ⟨rfl, rfl⟩ := closes
    simp [StringState.feed] at fed
  · have inside : state = .text → c ≠ '"' := fun h hc => closes ⟨h, hc⟩
    rw [StringState.feed] at fed
    · simp only [Option.bind_eq_some_iff, Option.map_eq_some_iff, Prod.mk.injEq] at fed
      obtain ⟨⟨next, first⟩, stepped, ⟨_, more⟩, tail, rfl, rfl⟩ := fed
      exact ⟨inside, next, first, more, stepped, tail, rfl⟩
    · exact inside

/-- A text is read to its end in the states that hold it. -/
theorem run_feed (wrap : StringState → List Char → State)
    (steps : ∀ {state next : StringState} {c out}, state.next c = some (next, out) →
      (state = .text → c ≠ '"') → ∀ text, step (wrap state text) c = some (wrap next (text ++ out)))
    {first : StringState} {inside : List Char} (fed : first.feed inside = some (last, out))
    (text : List Char) : run (wrap first text) inside = some (wrap last (text ++ out)) := by
  induction inside generalizing first text out with
  | nil =>
    simp only [StringState.feed, Option.some.injEq, Prod.mk.injEq] at fed
    obtain ⟨rfl, rfl⟩ := fed
    simp [run]
  | cons c rest ih =>
    obtain ⟨apart, next, one, more, stepped, tail, rfl⟩ := StringState.of_feed_cons fed
    rw [run, steps stepped apart, Option.bind_some, ih tail, List.append_assoc]

section

variable {escape : Char → List Char} (feeds : Feeds escape)

include feeds

theorem run_quote (text : String) (stack : List Frame) :
    run (.value stack) (quoteWith escape text) = some (.after (.str text) stack) := by
  have opened : step (.value stack) '"' = some (.string .text [] stack) := rfl
  rw [quoteWith, List.cons_append, run, opened, Option.bind_some, run_append,
    run_feed (.string · · stack) (step_string · · · stack) (feed_text feeds text.toList)]
  simp [run, step]

theorem run_quote_key (text : String) {state : State} {done : List (String × Value)}
    {stack : List Frame} (opened : step state '"' = some (.key .text [] done stack)) :
    run state (quoteWith escape text) = some (.colon text done stack) := by
  rw [quoteWith, List.cons_append, run, opened, Option.bind_some, run_append,
    run_feed (.key · · done stack) (step_key · · · done stack) (feed_text feeds text.toList)]
  simp [run, step]

end

/-! ## Numbers -/

theorem run_digits {digits : List Char} (all : ∀ c ∈ digits, c.isDigit = true)
    (text : List Char) (stack : List Frame) :
    run (.number .digits text stack) digits = some (.number .digits (text ++ digits) stack) := by
  induction digits generalizing text with
  | nil => simp [run]
  | cons c rest ih =>
    have digit : c.isDigit = true := all c List.mem_cons_self
    have here : step (.number .digits text stack) c =
        some (.number .digits (text ++ [c]) stack) := by
      simp [step, NumberState.next, digit]
    rw [run, here, Option.bind_some, ih (List.forall_mem_cons.mp all).2]
    simp

/-- The decimal text of a positive number starts with a digit other than zero. -/
theorem toDigits_pos {n : ℕ} (positive : 0 < n) :
    ∃ c rest, Nat.toDigits 10 n = c :: rest ∧ c ≠ '0' := by
  induction n using Nat.strongRecOn with
  | ind n ih =>
    by_cases small : n < 10
    · refine ⟨n.digitChar, [], Nat.toDigits_of_lt_base small, ?_⟩
      simp only [ne_eq, Nat.digitChar_eq_zero]
      omega
    · obtain ⟨c, rest, head, nonzero⟩ := ih (n / 10) (by omega) (by omega)
      refine ⟨c, rest ++ Nat.toDigits 10 (n % 10), ?_, nonzero⟩
      rw [Nat.toDigits_of_base_le (by decide) (by omega), head]
      simp [Nat.toDigits_of_lt_base (Nat.mod_lt n (by decide : 10 > 0))]

theorem isDigit_of_mem_toDigits {n : ℕ} (member : c ∈ Nat.toDigits 10 n) : c.isDigit = true :=
  Nat.isDigit_of_mem_toDigits (by decide) (by decide) member

theorem startValue_digit (digit : c.isDigit = true) (nonzero : c ≠ '0') (stack : List Frame) :
    step (.value stack) c = some (.number .digits [c] stack) := by
  have other : ∀ d : Char, d.isDigit = false → c ≠ d := by
    rintro d notDigit rfl
    exact absurd digit (by simp [notDigit])
  simp [step, startValue, isSpace, digit, nonzero, other]

theorem run_toDigits (n : ℕ) (stack : List Frame) :
    ∃ state, run (.value stack) (Nat.toDigits 10 n) =
        some (.number state (Nat.toDigits 10 n) stack) ∧
      ∀ text, state.value text = some (.int (intOfText text)) := by
  by_cases zero : n = 0
  · subst zero
    exact ⟨.zero, rfl, fun _ => rfl⟩
  · obtain ⟨c, rest, head, nonzero⟩ := toDigits_pos (Nat.pos_of_ne_zero zero)
    have all : ∀ d ∈ c :: rest, d.isDigit = true := fun d hd =>
      isDigit_of_mem_toDigits (head ▸ hd)
    refine ⟨.digits, ?_, fun _ => rfl⟩
    rw [head, run, startValue_digit (all c List.mem_cons_self) nonzero, Option.bind_some,
      run_digits (List.forall_mem_cons.mp all).2]
    rfl

theorem run_toDigits_minus {n : ℕ} (positive : 0 < n) (stack : List Frame) :
    run (.number .minus ['-'] stack) (Nat.toDigits 10 n) =
      some (.number .digits ('-' :: Nat.toDigits 10 n) stack) := by
  obtain ⟨c, rest, head, nonzero⟩ := toDigits_pos positive
  have all : ∀ d ∈ c :: rest, d.isDigit = true := fun d hd =>
    isDigit_of_mem_toDigits (head ▸ hd)
  have here : step (.number .minus ['-'] stack) c = some (.number .digits ['-', c] stack) := by
    simp [step, NumberState.next, nonzero, all c List.mem_cons_self]
  rw [head, run, here, Option.bind_some,
    run_digits (List.forall_mem_cons.mp all).2]
  rfl

theorem intOfText_decimal (n : ℤ) : intOfText (decimal n) = n := by
  cases n with
  | ofNat n =>
    have unsigned : ∀ rest, Nat.toDigits 10 n ≠ '-' :: rest := by
      intro rest head
      have := isDigit_of_mem_toDigits (n := n) (c := '-') (head ▸ List.mem_cons_self)
      exact absurd this (by decide)
    rw [decimal, intOfText.eq_2 _ unsigned, Nat.ofDigitChars_ten_toDigits]
    rfl
  | negSucc n =>
    rw [decimal, intOfText, Nat.ofDigitChars_ten_toDigits]
    rfl

/-- An integer is read where a value is expected, and may end there. -/
theorem run_decimal (n : ℤ) (stack : List Frame) :
    ∃ state, run (.value stack) (decimal n) = some state ∧
      state.settled = some (.int n, stack) := by
  cases n with
  | ofNat n =>
    obtain ⟨state, ran, ends⟩ := run_toDigits n stack
    refine ⟨_, ran, ?_⟩
    rw [State.settled, ends, Option.map_some, ← decimal, intOfText_decimal]
  | negSucc n =>
    have minus : step (.value stack) '-' = some (.number .minus ['-'] stack) := rfl
    refine ⟨.number .digits (decimal (.negSucc n)) stack, ?_, ?_⟩
    · rw [decimal, run, minus, Option.bind_some, run_toDigits_minus (Nat.succ_pos n)]
    · rw [State.settled, NumberState.value, Option.map_some, intOfText_decimal]

/-! ## What the writer wrote -/

/-- A separator or a closing bracket ends a value that may end. -/
theorem step_of_settled {state : State} {v : Value} {stack : List Frame} {c : Char}
    (settled : state.settled = some (v, stack)) (ends : c = ',' ∨ c = ']' ∨ c = '}') :
    step state c = stepAfter v stack c := by
  cases state with
  | after w below =>
    simp only [State.settled, Option.some.injEq, Prod.mk.injEq] at settled
    rw [step, settled.1, settled.2]
  | number state text below =>
    simp only [State.settled, Option.map_eq_some_iff, Prod.mk.injEq] at settled
    obtain ⟨w, value, rfl, rfl⟩ := settled
    have last : state.next c = none := by
      rcases ends with rfl | rfl | rfl <;> cases state <;> rfl
    simp only [step, last, value]
  | _ => simp [State.settled] at settled

section Writer

theorem dumps_head (escape : Char → List Char) {v : Value} (plain : Plain v) :
    ∃ c rest, dumpsWith escape v = c :: rest ∧ isSpace c = false ∧ c ≠ ']' := by
  cases v with
  | null => exact ⟨_, _, rfl, by decide, by decide⟩
  | bool truth => cases truth <;> exact ⟨_, _, rfl, by decide, by decide⟩
  | int n =>
    cases n with
    | negSucc n => exact ⟨_, _, rfl, by decide, by decide⟩
    | ofNat n =>
      obtain ⟨c, rest, head⟩ :=
        List.exists_cons_of_ne_nil (Nat.toDigits_ne_nil (n := n) (b := 10))
      have digit : c.isDigit = true :=
        isDigit_of_mem_toDigits (head ▸ List.mem_cons_self)
      refine ⟨c, rest, head, ?_, ?_⟩
      · by_contra space
        simp only [isSpace, Bool.not_eq_false, Bool.or_eq_true, decide_eq_true_eq] at space
        rcases space with ((rfl | rfl) | rfl) | rfl <;> exact absurd digit (by decide)
      · rintro rfl
        exact absurd digit (by decide)
  | float literal => exact absurd plain (by simp [Plain])
  | str text => exact ⟨_, _, rfl, by decide, by decide⟩
  | arr items => exact ⟨_, _, rfl, by decide, by decide⟩
  | obj members => exact ⟨_, _, rfl, by decide, by decide⟩

/-! ## Values, items and members -/

variable {escape : Char → List Char}

/-- The reader reads the text of the value and may end there. -/
def Reads (escape : Char → List Char) (v : Value) : Prop :=
  ∀ stack, ∃ state, run (.value stack) (dumpsWith escape v) = some state ∧
    state.settled = some (v, stack)

/-- A value and the separator or bracket after it. -/
theorem Reads.run_append {v : Value} (reads : Reads escape v) (stack : List Frame) {c : Char}
    (ends : c = ',' ∨ c = ']' ∨ c = '}') (rest : List Char) :
    run (.value stack) (dumpsWith escape v ++ c :: rest) =
      (stepAfter v stack c).bind fun next => run next rest := by
  obtain ⟨state, ran, settled⟩ := reads stack
  rw [Json.run_append, ran, Option.bind_some, run, step_of_settled settled ends]

/-- The first item is read as any other: its text starts with no space and no bracket. -/
theorem run_firstItem {v : Value} (plain : Plain v) (stack : List Frame) (rest : List Char) :
    run (.firstItem stack) (dumpsWith escape v ++ rest) =
      run (.value (.arr [] :: stack)) (dumpsWith escape v ++ rest) := by
  obtain ⟨c, more, head, space, bracket⟩ := dumps_head escape plain
  rw [head, List.cons_append, run, run, step, step, space]
  simp [bracket]

variable (feeds : Feeds escape)

include feeds

theorem run_member {key : String} {v : Value} (reads : Reads escape v) {state : State}
    {done : List (String × Value)} {stack : List Frame}
    (opened : step state '"' = some (.key .text [] done stack)) {c : Char}
    (ends : c = ',' ∨ c = ']' ∨ c = '}') (rest : List Char) :
    run state (quoteWith escape key ++ ':' :: (dumpsWith escape v ++ c :: rest)) =
      (stepAfter v (.obj done key :: stack) c).bind fun next => run next rest := by
  have colon : step (.colon key done stack) ':' = some (.value (.obj done key :: stack)) := rfl
  rw [Json.run_append, run_quote_key feeds key opened, Option.bind_some, run, colon,
    Option.bind_some, reads.run_append _ ends]

omit feeds in
theorem run_items : ∀ {item : Value} {rest : List Value}, (∀ v ∈ item :: rest, Reads escape v) →
    ∀ (done : List Value) (stack : List Frame),
      run (.value (.arr done :: stack)) (dumpsItemsWith escape (item :: rest)) =
        some (.after (.arr (done.reverse ++ item :: rest)) stack)
  | item, [], all, done, stack => by
      have itemReads : Reads escape item := all item List.mem_cons_self
      rw [dumpsItemsWith, itemReads.run_append _ (by simp)]
      simp [stepAfter, isSpace, run]
  | item, next :: rest, all, done, stack => by
      have itemReads : Reads escape item := all item List.mem_cons_self
      have comma : stepAfter item (.arr done :: stack) ',' =
          some (.value (.arr (item :: done) :: stack)) := rfl
      rw [dumpsItemsWith, itemReads.run_append _ (by simp), comma, Option.bind_some,
        run_items (List.forall_mem_cons.mp all).2 (item :: done) stack]
      simp

theorem run_members : ∀ {key : String} {v : Value} {rest : List (String × Value)},
    (∀ member ∈ (key, v) :: rest, Reads escape member.2) →
    ∀ {state : State} {done : List (String × Value)} {stack : List Frame},
      step state '"' = some (.key .text [] done stack) →
      run state (dumpsMembersWith escape ((key, v) :: rest)) =
        some (.after (.obj (done.reverse ++ (key, v) :: rest)) stack)
  | key, v, [], all, state, done, stack, opened => by
      have valueReads : Reads escape v := all (key, v) List.mem_cons_self
      rw [dumpsMembersWith, run_member feeds valueReads opened (by simp)]
      simp [stepAfter, isSpace, run]
  | key, v, (nextKey, nextValue) :: rest, all, state, done, stack, opened => by
      have valueReads : Reads escape v := all (key, v) List.mem_cons_self
      have comma : stepAfter v (.obj done key :: stack) ',' =
          some (.nextKey ((key, v) :: done) stack) := rfl
      rw [dumpsMembersWith, run_member feeds valueReads opened (by simp), comma, Option.bind_some,
        run_members (List.forall_mem_cons.mp all).2 rfl]
      simp

omit feeds in
theorem run_arr {items : List Value} (plain : PlainItems items)
    (all : ∀ item ∈ items, Reads escape item) (stack : List Frame) :
    run (.value stack) (dumpsWith escape (.arr items)) = some (.after (.arr items) stack) := by
  have opened : step (.value stack) '[' = some (.firstItem stack) := rfl
  rw [dumpsWith, run, opened, Option.bind_some]
  cases items with
  | nil => rfl
  | cons item rest =>
    have first : run (.firstItem stack) (dumpsItemsWith escape (item :: rest)) =
        run (.value (.arr [] :: stack)) (dumpsItemsWith escape (item :: rest)) := by
      cases rest with
      | nil => exact run_firstItem plain.1 stack _
      | cons next rest => exact run_firstItem plain.1 stack _
    rw [first, run_items all [] stack]
    rfl

/-- An object ends at its closing brace, not later. -/
theorem run_obj {members : List (String × Value)} (all : ∀ member ∈ members, Reads escape member.2)
    (stack : List Frame) :
    run (.value stack) (dumpsWith escape (.obj members)) = some (.after (.obj members) stack) := by
  have opened : step (.value stack) '{' = some (.firstKey stack) := rfl
  rw [dumpsWith, run, opened, Option.bind_some]
  cases members with
  | nil => rfl
  | cons member rest =>
    rw [run_members feeds all rfl]
    rfl

omit feeds

mutual
/-- **Every plain value is read back.** -/
theorem reads (feeds : Feeds escape) : ∀ v : Value, Plain v → Reads escape v
  | .null, _ => fun stack => ⟨.after .null stack, rfl, rfl⟩
  | .bool true, _ => fun stack => ⟨.after (.bool true) stack, rfl, rfl⟩
  | .bool false, _ => fun stack => ⟨.after (.bool false) stack, rfl, rfl⟩
  | .int n, _ => run_decimal n
  | .float _, plain => absurd plain (by simp [Plain])
  | .str text, _ => fun stack => ⟨_, run_quote feeds text stack, rfl⟩
  | .arr items, plain => fun stack => ⟨_, run_arr plain (reads_items feeds items plain) stack, rfl⟩
  | .obj members, plain => fun stack =>
    ⟨_, run_obj feeds (reads_members feeds members plain) stack, rfl⟩

theorem reads_items (feeds : Feeds escape) : ∀ items : List Value, PlainItems items →
    ∀ item ∈ items, Reads escape item
  | [], _ => by simp
  | item :: rest, plain => List.forall_mem_cons.mpr
      ⟨reads feeds item plain.1, reads_items feeds rest plain.2⟩

theorem reads_members (feeds : Feeds escape) : ∀ members : List (String × Value),
    PlainMembers members → ∀ member ∈ members, Reads escape member.2
  | [], _ => by simp
  | (_, v) :: rest, plain => List.forall_mem_cons.mpr
      ⟨reads feeds v plain.1, reads_members feeds rest plain.2⟩
end

/-- The reader gives back what a writer wrote. -/
theorem loads_dumpsWith (feeds : Feeds escape) {v : Value} (plain : Plain v) :
    loads (dumpsWith escape v) = some v := by
  obtain ⟨state, ran, settled⟩ := reads feeds v plain []
  simp [loads, ran, settled]

end Writer

mutual
/-- The writer is one of those that take their escapes. -/
theorem dumpsWith_escapeChar : ∀ v : Value, dumpsWith escapeChar v = dumps v
  | .null | .bool _ | .int _ | .float _ => rfl
  | .str _ => rfl
  | .arr items => by rw [dumpsWith, dumps, dumpsItemsWith_escapeChar items]
  | .obj members => by rw [dumpsWith, dumps, dumpsMembersWith_escapeChar members]

theorem dumpsItemsWith_escapeChar : ∀ items : List Value,
    dumpsItemsWith escapeChar items = dumpsItems items
  | [] => rfl
  | [item] => by rw [dumpsItemsWith, dumpsItems, dumpsWith_escapeChar item]
  | item :: next :: rest => by
      rw [dumpsItemsWith, dumpsItems, dumpsWith_escapeChar item,
        dumpsItemsWith_escapeChar (next :: rest)]

theorem dumpsMembersWith_escapeChar : ∀ members : List (String × Value),
    dumpsMembersWith escapeChar members = dumpsMembers members
  | [] => rfl
  | [(_, value)] => by
      rw [dumpsMembersWith, dumpsMembers, dumpsWith_escapeChar value]
      rfl
  | (_, value) :: next :: rest => by
      rw [dumpsMembersWith, dumpsMembers, dumpsWith_escapeChar value,
        dumpsMembersWith_escapeChar (next :: rest)]
      rfl
end

/-- **The reader gives back what the writer wrote.** -/
theorem loads_dumps {v : Value} (plain : Plain v) : loads (dumps v) = some v := by
  rw [← dumpsWith_escapeChar]
  exact loads_dumpsWith feeds_escapeChar plain

theorem dumps_injOn {first second : Value} (plain : Plain first) (plain' : Plain second)
    (same : dumps first = dumps second) : first = second := by
  have read := loads_dumps plain
  rw [same, loads_dumps plain'] at read
  exact (Option.some.inj read).symm

/-! ## Cut and merged texts -/

/-- No container is open, and none can be opened any more. -/
def TopLevel : State → Prop
  | .after _ stack | .number _ _ stack => stack = []
  | .literal rest _ stack => stack = [] ∧ '}' ∉ rest
  | _ => False

theorem topLevel_of_settled {state : State} {v : Value}
    (settled : state.settled = some (v, [])) : TopLevel state := by
  cases state with
  | after w stack =>
    simp only [State.settled, Option.some.injEq, Prod.mk.injEq] at settled
    exact settled.2
  | number form text stack =>
    simp only [State.settled, Option.map_eq_some_iff, Prod.mk.injEq] at settled
    obtain ⟨_, _, _, rfl⟩ := settled
    rfl
  | _ => simp [State.settled] at settled

theorem stepAfter_topLevel {v : Value} {next : State} (stepped : stepAfter v [] c = some next) :
    TopLevel next ∧ c ≠ '}' := by
  unfold stepAfter at stepped
  split at stepped
  case isTrue space =>
    cases stepped
    refine ⟨rfl, ?_⟩
    rintro rfl
    exact absurd space (by decide)
  case isFalse => simp at stepped

theorem step_topLevel {state next : State} (top : TopLevel state)
    (stepped : step state c = some next) : TopLevel next ∧ c ≠ '}' := by
  cases state with
  | after v stack =>
    obtain rfl : stack = [] := top
    exact stepAfter_topLevel stepped
  | number form text stack =>
    obtain rfl : stack = [] := top
    rw [step] at stepped
    split at stepped
    case h_1 form' ahead =>
      cases stepped
      refine ⟨rfl, ?_⟩
      rintro rfl
      cases form <;> simp [NumberState.next] at ahead
    case h_2 =>
      split at stepped
      case h_1 => exact stepAfter_topLevel stepped
      case h_2 =>
        split at stepped
        case isTrue infinity =>
          cases stepped
          exact ⟨⟨rfl, by decide⟩, infinity.2 ▸ by decide⟩
        case isFalse => simp at stepped
  | literal rest v stack =>
    obtain ⟨rfl, apart⟩ : stack = [] ∧ '}' ∉ rest := top
    match rest with
    | [] => exact stepAfter_topLevel stepped
    | [d] =>
      simp only [step, Option.ite_none_right_eq_some, Option.some.injEq] at stepped
      obtain ⟨rfl, rfl⟩ := stepped
      exact ⟨rfl, fun closes => apart (closes ▸ List.mem_cons_self)⟩
    | d :: e :: rest =>
      simp only [step, Option.ite_none_right_eq_some, Option.some.injEq] at stepped
      obtain ⟨rfl, rfl⟩ := stepped
      exact ⟨⟨rfl, fun member => apart (List.mem_cons_of_mem _ member)⟩,
        fun closes => apart (closes ▸ List.mem_cons_self)⟩
  | _ => exact top.elim

theorem run_topLevel {state last : State} {text : List Char} (top : TopLevel state)
    (ran : run state text = some last) : '}' ∉ text := by
  induction text generalizing state with
  | nil => simp
  | cons c rest ih =>
    obtain ⟨next, stepped, tail⟩ := Option.bind_eq_some_iff.mp ran
    obtain ⟨topNext, apart⟩ := step_topLevel top stepped
    simp only [List.mem_cons, not_or]
    exact ⟨fun closes => apart closes.symm, ih topNext tail⟩

section Writer

theorem dumpsMembersWith_ends (escape : Char → List Char) : ∀ members : List (String × Value),
    ∃ start, dumpsMembersWith escape members = start ++ ['}']
  | [] => ⟨[], rfl⟩
  | [(key, v)] =>
    ⟨quoteWith escape key ++ ':' :: dumpsWith escape v, by simp [dumpsMembersWith]⟩
  | (key, v) :: next :: rest => by
      obtain ⟨start, ends⟩ := dumpsMembersWith_ends escape (next :: rest)
      exact ⟨quoteWith escape key ++ ':' :: (dumpsWith escape v ++ ',' :: start),
        by simp [dumpsMembersWith, ends]⟩

variable {escape : Char → List Char} (feeds : Feeds escape)

include feeds

/-- A proper prefix of an object text is no JSON text. -/
theorem loads_take_dumpsWith_obj {members : List (String × Value)}
    (plain : Plain (.obj members)) {cut rest : List Char}
    (whole : cut ++ rest = dumpsWith escape (.obj members)) (more : rest ≠ []) :
    loads cut = none := by
  by_contra accepted
  obtain ⟨v, read⟩ := Option.ne_none_iff_exists'.mp accepted
  have full : run (.value []) (cut ++ rest) = some (.after (.obj members) []) := by
    rw [whole]
    exact run_obj feeds (reads_members feeds members plain) []
  rw [run_append] at full
  obtain ⟨state, ran, tail⟩ := Option.bind_eq_some_iff.mp full
  have top : TopLevel state := by
    simp only [loads, ran, Option.bind_eq_bind, Option.bind_some] at read
    split at read
    case h_1 w settled => exact topLevel_of_settled settled
    case h_2 => simp at read
  have brace : '}' ∈ rest := by
    obtain ⟨start, ends⟩ := dumpsMembersWith_ends escape members
    have last : (cut ++ rest).getLast? = some '}' := by
      rw [whole, dumpsWith, ends, List.getLast?_cons]
      simp
    rw [List.getLast?_append_of_ne_nil _ more] at last
    exact List.mem_of_getLast? last
  exact run_topLevel top tail brace

/-- Nothing but space may follow an object text. -/
theorem loads_dumpsWith_obj_append {members : List (String × Value)}
    (plain : Plain (.obj members)) {c : Char} (visible : isSpace c = false)
    (rest : List Char) : loads (dumpsWith escape (.obj members) ++ c :: rest) = none := by
  have stuck : step (.after (.obj members) []) c = none := by
    simp [step, stepAfter, visible]
  rw [loads, run_append, run_obj feeds (reads_members feeds members plain) [], Option.bind_some,
    run, stuck]
  rfl

end Writer

/-- **A proper prefix of an object text is no JSON text.** -/
theorem loads_take_dumps_obj {members : List (String × Value)}
    (plain : Plain (.obj members)) {cut rest : List Char}
    (whole : cut ++ rest = dumps (.obj members)) (more : rest ≠ []) : loads cut = none := by
  rw [← dumpsWith_escapeChar] at whole
  exact loads_take_dumpsWith_obj feeds_escapeChar plain whole more

/-- **Nothing but space may follow an object text.** -/
theorem loads_dumps_obj_append {members : List (String × Value)} (plain : Plain (.obj members))
    (visible : isSpace c = false) (rest : List Char) :
    loads (dumps (.obj members) ++ c :: rest) = none := by
  rw [← dumpsWith_escapeChar]
  exact loads_dumpsWith_obj_append feeds_escapeChar plain visible rest

/-! ## The characters of a text -/

/-- A character in the printable part of ASCII, space included. -/
def Printable (c : Char) : Prop :=
  0x20 ≤ c.toNat ∧ c.toNat ≤ 0x7e

instance (c : Char) : Decidable (Printable c) :=
  inferInstanceAs (Decidable (_ ∧ _))

theorem printable_of_all {text : List Char} (all : text.all fun c => decide (Printable c)) :
    ∀ c ∈ text, Printable c := by
  intro c member
  exact of_decide_eq_true (List.all_eq_true.mp all c member)

theorem printable_digitChar : ∀ d < 16, Printable (Nat.digitChar d) := by
  decide

theorem printable_hex4 (n : ℕ) : ∀ c ∈ hex4 n, Printable c := by
  have digit : ∀ m, Printable (Nat.digitChar (m % 16)) := fun m =>
    printable_digitChar _ (Nat.mod_lt _ (by decide))
  simp [hex4, digit]

theorem printable_escapeChar (c : Char) : ∀ d ∈ escapeChar c, Printable d := by
  have code : ∀ n, ∀ d ∈ '\\' :: 'u' :: hex4 n, Printable d := by
    intro n
    simp only [List.forall_mem_cons]
    exact ⟨by decide, by decide, printable_hex4 n⟩
  rcases escapeChar_cases c with ⟨letter, -, -, visible, escaped⟩ | ⟨-, -, visible, escaped⟩ |
    ⟨-, escaped⟩ | ⟨-, escaped⟩
  · rw [escaped]
    simp only [List.forall_mem_cons]
    exact ⟨by decide, visible, fun d member => nomatch member⟩
  · rw [escaped]
    exact List.forall_mem_singleton.mpr visible
  · rw [escaped]
    exact code _
  · rw [escaped]
    exact List.forall_mem_append.mpr ⟨code _, code _⟩

theorem printable_of_isDigit (digit : c.isDigit = true) : Printable c := by
  simp only [Char.isDigit, Bool.and_eq_true, decide_eq_true_eq] at digit
  obtain ⟨lower, upper⟩ := digit
  have lower' : 48 ≤ c.toNat := lower
  have upper' : c.toNat ≤ 57 := upper
  exact ⟨by omega, by omega⟩

theorem printable_decimal (n : ℤ) : ∀ c ∈ decimal n, Printable c := by
  intro c member
  cases n with
  | ofNat n => exact printable_of_isDigit (isDigit_of_mem_toDigits member)
  | negSucc n =>
    rcases List.mem_cons.mp member with rfl | digits
    · decide
    · exact printable_of_isDigit (isDigit_of_mem_toDigits digits)

section

variable {escape : Char → List Char} {allowed : Char → Prop}
  (printable : ∀ c, Printable c → allowed c) (escaped : ∀ c, ∀ d ∈ escape c, allowed d)

include printable escaped

theorem forall_mem_quoteWith (text : String) : ∀ c ∈ quoteWith escape text, allowed c := by
  intro c member
  simp only [quoteWith, List.cons_append, List.mem_cons, List.mem_append, List.mem_flatMap,
    List.not_mem_nil, or_false] at member
  rcases member with rfl | ⟨d, -, inside⟩ | rfl
  · exact printable _ (by decide)
  · exact escaped d c inside
  · exact printable _ (by decide)

theorem forall_mem_member {v : Value} (all : ∀ c ∈ dumpsWith escape v, allowed c)
    (key : String) {rest : List Char} (others : ∀ c ∈ rest, allowed c) :
    ∀ c ∈ quoteWith escape key ++ ':' :: (dumpsWith escape v ++ rest), allowed c := by
  rw [List.forall_mem_append, List.forall_mem_cons, List.forall_mem_append]
  exact ⟨forall_mem_quoteWith printable escaped key, printable _ (by decide), all, others⟩

omit escaped in
theorem allowed_of_all {text : List Char} (all : text.all fun c => decide (Printable c)) :
    ∀ c ∈ text, allowed c := by
  intro c member
  exact printable c (printable_of_all all c member)

end

mutual
/-- The text of a plain value has the characters of its escapes and printable ones. -/
theorem forall_mem_dumpsWith {escape : Char → List Char} {allowed : Char → Prop}
    (printable : ∀ c, Printable c → allowed c) (escaped : ∀ c, ∀ d ∈ escape c, allowed d) :
    ∀ v : Value, Plain v → ∀ c ∈ dumpsWith escape v, allowed c
  | .null, _ => allowed_of_all printable rfl
  | .bool true, _ => allowed_of_all printable rfl
  | .bool false, _ => allowed_of_all printable rfl
  | .int n, _ => fun c member => printable c (printable_decimal n c member)
  | .float _, plain => absurd plain (by simp [Plain])
  | .str text, _ => forall_mem_quoteWith printable escaped text
  | .arr items, plain => by
      rw [dumpsWith, List.forall_mem_cons]
      exact ⟨printable _ (by decide), forall_mem_dumpsItemsWith printable escaped items plain⟩
  | .obj members, plain => by
      rw [dumpsWith, List.forall_mem_cons]
      exact ⟨printable _ (by decide), forall_mem_dumpsMembersWith printable escaped members plain⟩

theorem forall_mem_dumpsItemsWith {escape : Char → List Char} {allowed : Char → Prop}
    (printable : ∀ c, Printable c → allowed c) (escaped : ∀ c, ∀ d ∈ escape c, allowed d) :
    ∀ items : List Value, PlainItems items → ∀ c ∈ dumpsItemsWith escape items, allowed c
  | [], _ => allowed_of_all printable rfl
  | [item], plain => by
      rw [dumpsItemsWith, List.forall_mem_append]
      exact ⟨forall_mem_dumpsWith printable escaped item plain.1, allowed_of_all printable rfl⟩
  | item :: next :: rest, plain => by
      rw [dumpsItemsWith, List.forall_mem_append, List.forall_mem_cons]
      exact ⟨forall_mem_dumpsWith printable escaped item plain.1, printable _ (by decide),
        forall_mem_dumpsItemsWith printable escaped (next :: rest) plain.2⟩

theorem forall_mem_dumpsMembersWith {escape : Char → List Char} {allowed : Char → Prop}
    (printable : ∀ c, Printable c → allowed c) (escaped : ∀ c, ∀ d ∈ escape c, allowed d) :
    ∀ members : List (String × Value), PlainMembers members →
      ∀ c ∈ dumpsMembersWith escape members, allowed c
  | [], _ => allowed_of_all printable rfl
  | [(key, v)], plain => by
      rw [dumpsMembersWith]
      exact forall_mem_member printable escaped
        (forall_mem_dumpsWith printable escaped v plain.1) key (allowed_of_all printable rfl)
  | (key, v) :: next :: rest, plain => by
      rw [dumpsMembersWith]
      refine forall_mem_member printable escaped
        (forall_mem_dumpsWith printable escaped v plain.1) key ?_
      rw [List.forall_mem_cons]
      exact ⟨printable _ (by decide),
        forall_mem_dumpsMembersWith printable escaped (next :: rest) plain.2⟩
end

/-- **The text of a plain value is printable ASCII.** -/
theorem printable_dumps (v : Value) (plain : Plain v) : ∀ c ∈ dumps v, Printable c := by
  rw [← dumpsWith_escapeChar]
  exact forall_mem_dumpsWith (fun _ printable => printable) printable_escapeChar v plain

end TreeOptions.Json
