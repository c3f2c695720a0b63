import OperandLifecycle.Proofs.NumberText
import OperandLifecycle.Json.Print
import OperandLifecycle.Proofs.Documents
/-!
# Written values read back

The writer's plain layout (`Layout.plain`: members in their order, `", "` between items and
`": "` after keys) produces text the reader takes back to the same value. `Value.Dumpable` says
which values the writer produces for the reader: its floats are finite, its integers have at
most `maxIntegerDigits` digits and its objects have distinct keys, at every depth.

The proof follows the writer. A string is its escapes between quotes, and each escape reads as
the character it stands for (`scanString_escapeChar`: itself, a simple escape, one four-digit
escape or a pair of surrogates); a number reads back by `scanNumber_render` and
`scanNumber_toString_int`; the items of an array and the members of an object are read one
separator at a time (`parseItems_comma`, `parseMembers_comma`), keeping for each value that its
text starts a value (`StartsValue`) and reads back before anything that ends a number
(`Value.ReadsBack`). `readsBack_of_dumpable` is the induction over `Value.Dumpable`, and
`parse_write` reads a whole document with blanks around the value.
-/

namespace OperandLifecycle.Json

open Parse

/-! ### Strings and numbers -/

theorem hexValue_digitChar {v : ℕ} (hv : v < 16) : hexValue (Nat.digitChar v) = some v := by
  interval_cases v <;> rfl

theorem hexDigit_eq (n i : ℕ) :
    (Nat.toDigits 16 ((n / Nat.pow 16 i) % 16)).headD '0' = Nat.digitChar ((n / 16 ^ i) % 16) := by
  rw [Nat.toDigits_of_lt_base (Nat.mod_lt _ (by norm_num))]
  rfl

theorem toList_hex4Text (n : ℕ) :
    (hex4Text n).toList = [Nat.digitChar (n / 4096 % 16), Nat.digitChar (n / 256 % 16),
      Nat.digitChar (n / 16 % 16), Nat.digitChar (n % 16)] := by
  simp only [hex4Text, hexDigit_eq, String.toList_ofList]
  norm_num

theorem hex4_hex4Text {n : ℕ} (hn : n < 65536) : hex4 (hex4Text n).toList = some n := by
  have h16 : ∀ k, k % 16 < 16 := fun k => Nat.mod_lt _ (by norm_num)
  rw [toList_hex4Text]
  simp only [hex4, hexValue_digitChar (h16 _), Option.pure_def, Option.bind_eq_bind, Option.bind_some]
  congr 1
  omega

theorem toList_escapeMark : ("\\u" : String).toList = ['\\', 'u'] := by simp

theorem toList_escape_append (a : ℕ) (more : List Char) :
    ("\\u" ++ hex4Text a).toList ++ more = '\\' :: 'u' :: ((hex4Text a).toList ++ more) := by
  simp only [String.toList_append, toList_escapeMark, List.cons_append, List.nil_append]

theorem toList_escapePair_append (a b : ℕ) (more : List Char) :
    ("\\u" ++ hex4Text a ++ "\\u" ++ hex4Text b).toList ++ more =
      '\\' :: 'u' :: ((hex4Text a).toList ++ '\\' :: 'u' :: ((hex4Text b).toList ++ more)) := by
  simp only [String.toList_append, toList_escapeMark, List.append_assoc, List.cons_append,
    List.nil_append]

theorem codeChar_toNat (c : Char) : codeChar c.toNat = c := by
  unfold codeChar
  rw [if_pos (show c.toNat.isValidChar from c.valid), Char.ofNat_toNat]

/-- A four-digit escape of `n`, then at least one more character: the reader takes `n` and
goes on after the escape. -/
theorem scanString_hex4 (begin : ℕ) (acc : List Char) {n : ℕ} (hn : n < 65536)
    (hlow : n < 0xD800 ∨ 0xDBFF < n) {more : List Char} (hmore : more ≠ []) :
    scanString begin acc ('\\' :: 'u' :: ((hex4Text n).toList ++ more)) =
      scanString begin (codeChar n :: acc) more := by
  have hlen : (hex4Text n).toList.length = 4 := by rw [toList_hex4Text]; rfl
  have hm : 0 < more.length := List.length_pos_iff.2 hmore
  rw [scanString.eq_4, if_neg (by rw [List.length_append]; omega),
    List.take_left' hlen, hex4_hex4Text hn]
  dsimp only
  rw [List.drop_left' hlen, if_neg (by omega)]

/-- A pair of surrogate escapes, then at least one more character: the reader joins them into
one code point. -/
theorem scanString_pair (begin : ℕ) (acc : List Char) {hi lo : ℕ}
    (hhi : 0xD800 ≤ hi ∧ hi ≤ 0xDBFF) (hlo : 0xDC00 ≤ lo ∧ lo ≤ 0xDFFF) {more : List Char}
    (hmore : more ≠ []) :
    scanString begin acc
        ('\\' :: 'u' :: ((hex4Text hi).toList ++ '\\' :: 'u' :: ((hex4Text lo).toList ++ more))) =
      scanString begin (codeChar (0x10000 + (hi - 0xD800) * 0x400 + (lo - 0xDC00)) :: acc) more := by
  have hlen : ∀ n, (hex4Text n).toList.length = 4 := fun n => by rw [toList_hex4Text]; rfl
  have hm : 0 < more.length := List.length_pos_iff.2 hmore
  rw [scanString.eq_4, if_neg (by simp only [List.length_append, List.length_cons, hlen]; omega),
    List.take_left' (hlen hi), hex4_hex4Text (by omega)]
  dsimp only
  rw [List.drop_left' (hlen hi), if_pos ⟨hhi.1, hhi.2,
    by simp only [List.length_append, List.length_cons, hlen]; omega, rfl⟩]
  simp only [List.drop_succ_cons, List.drop_zero]
  rw [List.take_left' (hlen lo), hex4_hex4Text (by omega)]
  dsimp only
  rw [if_pos hlo, List.drop_left' (hlen lo)]

/-- Reading the escape of a character, then at least one more character, gives the character. -/
theorem scanString_escapeChar (begin : ℕ) (acc : List Char) (c : Char) {more : List Char}
    (hmore : more ≠ []) :
    scanString begin acc ((escapeChar c).toList ++ more) = scanString begin (c :: acc) more := by
  unfold escapeChar
  split
  case h_8 hq hb _ _ _ _ _ =>
    have hv : c.toNat < 0xD800 ∨ (0xDFFF < c.toNat ∧ c.toNat < 0x110000) := c.valid
    dsimp only
    split_ifs with hp hbmp
    · -- printable ASCII stands for itself
      rw [String.toList_singleton, List.singleton_append, scanString.eq_6 _ _ _ _ hq hb,
        if_neg (by omega)]
    · -- a four-digit escape
      rw [toList_escape_append, scanString_hex4 begin acc hbmp (by omega) hmore, codeChar_toNat]
    · -- above the first plane, a surrogate pair
      rw [toList_escapePair_append, scanString_pair begin acc (by omega) (by omega) hmore]
      have hjoin : 0x10000 + (0xD800 + (c.toNat - 0x10000) / 0x400 - 0xD800) * 0x400 +
          (0xDC00 + (c.toNat - 0x10000) % 0x400 - 0xDC00) = c.toNat := by omega
      rw [hjoin, codeChar_toNat]
  all_goals simp [scanString.eq_5, simpleEscape]

/-- The escapes of some characters, then a closing quote: the reader takes the characters and
stops after the quote. -/
theorem scanString_escaped (begin : ℕ) (acc cs rest : List Char) :
    scanString begin acc ((cs.flatMap fun c => (escapeChar c).toList) ++ '"' :: rest) =
      .ok (String.ofList (acc.reverse ++ cs), rest) := by
  induction cs generalizing acc with
  | nil => rw [List.flatMap_nil, List.nil_append, scanString.eq_2, List.append_nil]
  | cons c cs ih =>
    rw [List.flatMap_cons, List.append_assoc, scanString_escapeChar begin acc c (by simp), ih]
    simp

theorem toList_quote (s : String) :
    (quote s).toList = '"' :: (s.toList.flatMap fun c => (escapeChar c).toList) ++ ['"'] := by
  simp [quote, String.toList_join, List.flatMap_map]

/-- A quoted text reads back as the string it quotes. -/
theorem parseValue_quote (s : String) (rest : List Char) :
    parseValue ((quote s).toList ++ rest) = .ok (.str s, rest) := by
  rw [toList_quote]
  simp only [List.cons_append, List.append_assoc]
  rw [parseValue.eq_2, scanString_escaped]
  simp [Except.map]

/-- Text that starts with a number reads as that number. -/
theorem parseValue_of_scanNumber {cs rest : List Char} {t : NumberToken}
    (h : scanNumber cs = some (t, rest)) : parseValue cs = t.toValue.map (·, rest) := by
  rw [parseValue.eq_def]
  split
  case h_11 => rw [h]
  -- no other form of value starts a number
  all_goals simp [scanNumber, scanSign, scanWhole] at h

/-! ### Items and members -/

theorem skipBlank_of_not_blank {c : Char} (hc : isBlank c = false) (r : List Char) :
    skipBlank (c :: r) = c :: r := by
  simp [skipBlank, hc]

/-- An item followed by the closing bracket ends the array. -/
theorem parseItems_last {acc : List Value} {cs rest : List Char} {v : Value}
    (hv : parseValue cs = .ok (v, ']' :: rest)) (hlen : (']' :: rest).length < cs.length) :
    parseItems acc cs = .ok (.arr (v :: acc).reverse, rest) := by
  rw [parseItems.eq_1, hv]
  dsimp only
  rw [dif_pos hlen]
  split
  · rename_i r h
    rw [skipBlank_of_not_blank (by decide)] at h
    injection h with _ h
    rw [h]
  · rename_i r h
    rw [skipBlank_of_not_blank (by decide)] at h
    injection h with h
    exact absurd h (by decide)
  · rename_i h _
    exact absurd (skipBlank_of_not_blank (by decide) rest) (h rest)

theorem skipBlank_space (r : List Char) : skipBlank (' ' :: r) = skipBlank r := by
  simp [skipBlank, isBlank]

/-- An item followed by a comma and a blank: the next item follows. -/
theorem parseItems_comma {acc : List Value} {cs tail : List Char} {v : Value}
    (hv : parseValue cs = .ok (v, ',' :: ' ' :: tail)) (hlen : (',' :: ' ' :: tail).length < cs.length)
    (htail : skipBlank tail = tail) : parseItems acc cs = parseItems (v :: acc) tail := by
  rw [parseItems.eq_1, hv]
  dsimp only
  rw [dif_pos hlen]
  split
  · rename_i r h
    rw [skipBlank_of_not_blank (by decide)] at h
    injection h with h
    exact absurd h (by decide)
  · rename_i r h
    rw [skipBlank_of_not_blank (by decide)] at h
    injection h with _ h
    rw [← h, skipBlank_space, htail]
  · rename_i _ h
    exact absurd (skipBlank_of_not_blank (by decide) (' ' :: tail)) (h (' ' :: tail))

/-- The text of a key as a member writes it: the escaped key, the closing quote, a colon and a
blank. -/
def keyText (k : String) : List Char :=
  (k.toList.flatMap fun c => (escapeChar c).toList) ++ ['"', ':', ' ']

/-- The last member: its key, its value and the closing brace. -/
theorem parseMembers_last (acc : Fields) (k : String) {vt rest : List Char} {v : Value}
    (hv : parseValue (vt ++ '}' :: rest) = .ok (v, '}' :: rest))
    (hlead : skipBlank (vt ++ '}' :: rest) = vt ++ '}' :: rest) :
    parseMembers acc ('"' :: (keyText k ++ (vt ++ '}' :: rest))) =
      .ok (.obj (acc.insert k v), rest) := by
  have hk : keyText k ++ (vt ++ '}' :: rest) = (k.toList.flatMap fun c => (escapeChar c).toList) ++
      '"' :: (':' :: ' ' :: (vt ++ '}' :: rest)) := by simp [keyText]
  rw [parseMembers.eq_1, hk, scanString_escaped]
  dsimp only
  rw [skipBlank_of_not_blank (by decide)]
  simp only []
  rw [skipBlank_space, hlead, dif_pos (by simp; omega), hv]
  dsimp only
  rw [skipBlank_of_not_blank (by decide)]
  simp

/-- A member followed by a comma and a blank: the next member follows. -/
theorem parseMembers_comma (acc : Fields) (k : String) {vt next : List Char} {v : Value}
    (hv : parseValue (vt ++ ',' :: ' ' :: next) = .ok (v, ',' :: ' ' :: next))
    (hlead : skipBlank (vt ++ ',' :: ' ' :: next) = vt ++ ',' :: ' ' :: next)
    (hnext : skipBlank next = next) :
    parseMembers acc ('"' :: (keyText k ++ (vt ++ ',' :: ' ' :: next))) =
      parseMembers (acc.insert k v) next := by
  have hk : keyText k ++ (vt ++ ',' :: ' ' :: next) =
      (k.toList.flatMap fun c => (escapeChar c).toList) ++
        '"' :: (':' :: ' ' :: (vt ++ ',' :: ' ' :: next)) := by simp [keyText]
  rw [parseMembers.eq_1, hk, scanString_escaped]
  dsimp only
  rw [skipBlank_of_not_blank (by decide)]
  simp only []
  rw [skipBlank_space, hlead, dif_pos (by simp; omega), hv]
  dsimp only
  rw [skipBlank_of_not_blank (by decide)]
  simp only []
  rw [skipBlank_space, hnext, dif_pos (by simp; omega)]
  simp

/-- The text starts with a character that can begin a value: not a blank, not a closing
bracket or brace. -/
def StartsValue (cs : List Char) : Prop :=
  ∃ c r, cs = c :: r ∧ isBlank c = false ∧ c ≠ ']' ∧ c ≠ '}'

theorem StartsValue.append {cs : List Char} (h : StartsValue cs) (r : List Char) :
    StartsValue (cs ++ r) := by
  obtain ⟨c, t, rfl, h⟩ := h
  exact ⟨c, t ++ r, rfl, h⟩

theorem StartsValue.skipBlank {cs : List Char} (h : StartsValue cs) : skipBlank cs = cs := by
  obtain ⟨c, t, rfl, hc, -⟩ := h
  exact skipBlank_of_not_blank hc t

theorem startsValue_of_head {c : Char} (r : List Char) (h : c = '-' ∨ c.isDigit = true) :
    StartsValue (c :: r) := by
  refine ⟨c, r, rfl, ?_⟩
  rcases h with rfl | h
  · decide
  · refine ⟨?_, ?_, ?_⟩
    · cases hb : isBlank c
      · rfl
      · simp only [isBlank, Bool.or_eq_true, beq_iff_eq] at hb
        rcases hb with ((rfl | rfl) | rfl) | rfl <;> simp at h
    · rintro rfl; simp at h
    · rintro rfl; simp at h

theorem isDigit_of_scanWhole {c : Char} {r : List Char} {p : List Char × List Char}
    (h : scanWhole (c :: r) = some p) : c.isDigit = true := by
  by_cases h0 : c = '0'
  · rw [h0]; rfl
  rw [scanWhole.eq_2 c r h0] at h
  split_ifs at h with h1
  exact isDigit_of_nonzero h1

/-- Text that reads as a number starts with a minus or a digit. -/
theorem startsValue_of_scanNumber {cs : List Char} {p : NumberToken × List Char}
    (h : scanNumber cs = some p) : StartsValue cs := by
  cases cs with
  | nil => simp [scanNumber, scanSign, scanWhole] at h
  | cons c r =>
    refine startsValue_of_head r ?_
    by_cases hc : c = '-'
    · exact .inl hc
    refine .inr ?_
    unfold scanNumber at h
    rw [scanSign_of_ne hc] at h
    dsimp only at h
    obtain ⟨⟨w, r1⟩, hw, -⟩ := Option.map_eq_some_iff.1 h
    exact isDigit_of_scanWhole hw

/-! ### Values -/

/-- Values as the writer produces them for the reader: finite floats, integers of at most
`maxIntegerDigits` digits, and objects with distinct keys, at every depth. -/
inductive Value.Dumpable : Value → Prop
  | null : Dumpable .null
  | bool (b : Bool) : Dumpable (.bool b)
  | int {n : ℤ} : (Nat.toDigits 10 n.natAbs).length ≤ maxIntegerDigits → Dumpable (.int n)
  | float {x : Float} : Number.Binary64.isFinite x = true → Dumpable (.float x)
  | str (s : String) : Dumpable (.str s)
  | arr {xs : List Value} : (∀ x ∈ xs, Dumpable x) → Dumpable (.arr xs)
  | obj {fs : Fields} : (Fields.keys fs).Nodup → (∀ p ∈ fs, Dumpable p.2) → Dumpable (.obj fs)

/-- The text of a value in the plain layout starts a value, and reads back as the value before
anything that ends a number. -/
def Value.ReadsBack (v : Value) : Prop :=
  StartsValue (v.write Layout.plain).toList ∧
    ∀ rest, EndsNumber rest → parseValue ((v.write Layout.plain).toList ++ rest) = .ok (v, rest)

theorem writeItems_eq (lay : Layout) (xs : List Value) :
    writeItems lay xs = xs.map (·.write lay) := by
  induction xs with
  | nil => rfl
  | cons x xs ih => rw [writeItems, ih, List.map_cons]

theorem writeMembers_eq (lay : Layout) (fs : Fields) :
    writeMembers lay fs = fs.map fun p => (p.1, p.2.write lay) := by
  induction fs with
  | nil => rfl
  | cons p fs ih => rw [writeMembers, ih, List.map_cons]

theorem endsNumber_of_head {c : Char} (r : List Char)
    (h : c.isDigit = false ∧ c ≠ '.' ∧ c ≠ 'e' ∧ c ≠ 'E') : EndsNumber (c :: r) := by
  intro c' hc'
  simp only [List.head?_cons, Option.mem_def, Option.some.injEq] at hc'
  rw [← hc']
  exact h

theorem toList_itemSep : (", " : String).toList = [',', ' '] := by simp

/-- Written items joined by a comma and a blank start with the first item. -/
theorem startsValue_intercalate (x : Value) (xs : List Value)
    (hx : StartsValue (x.write Layout.plain).toList) (r : List Char) :
    StartsValue ((", ".intercalate ((x :: xs).map (·.write Layout.plain))).toList ++ r) := by
  cases xs with
  | nil =>
    rw [List.map_singleton, String.intercalate_singleton]
    exact hx.append r
  | cons y ys =>
    rw [List.map_cons, List.map_cons, String.intercalate_cons_cons]
    simp only [String.toList_append, List.append_assoc]
    exact hx.append _

/-- The items of an array, each reading back, separated by a comma and a blank and closed by a
bracket. -/
theorem parseItems_written (acc : List Value) (x : Value) (xs : List Value)
    (h : ∀ y ∈ x :: xs, y.ReadsBack) (rest : List Char) :
    parseItems acc ((", ".intercalate ((x :: xs).map (·.write Layout.plain))).toList ++
      ']' :: rest) = .ok (.arr (acc.reverse ++ x :: xs), rest) := by
  induction xs generalizing x acc with
  | nil =>
    obtain ⟨hs, hx⟩ := h x (by simp)
    obtain ⟨c, t, ht, -⟩ := hs
    rw [List.map_singleton, String.intercalate_singleton,
      parseItems_last (hx _ (endsNumber_of_head rest (by decide))) (by simp [ht])]
    simp
  | cons y ys ih =>
    obtain ⟨hs, hx⟩ := h x (by simp)
    obtain ⟨c, t, ht, -⟩ := hs
    have htail := startsValue_intercalate y ys (h y (by simp)).1 (']' :: rest)
    rw [List.map_cons, List.map_cons, String.intercalate_cons_cons, ← List.map_cons]
    simp only [String.toList_append, List.append_assoc, toList_itemSep, List.cons_append,
      List.nil_append]
    rw [parseItems_comma (hx _ (endsNumber_of_head _ (by decide))) (by simp [ht]) htail.skipBlank,
      ih (x :: acc) y fun z hz => h z (List.mem_cons_of_mem _ hz)]
    simp

theorem Fields.insert_of_not_mem {fs : Fields} {k : String} (h : k ∉ Fields.keys fs) (v : Value) :
    fs.insert k v = fs ++ [(k, v)] := by
  rw [Fields.insert, if_neg (by rwa [Fields.contains_eq_true_iff])]

theorem toList_intercalate_cons (sep a : String) (as : List String) :
    ∃ t, (sep.intercalate (a :: as)).toList = a.toList ++ t := by
  cases as with
  | nil => exact ⟨[], by rw [String.intercalate_singleton, List.append_nil]⟩
  | cons b bs => exact ⟨_, by rw [String.intercalate_cons_cons, String.toList_append,
      String.toList_append, List.append_assoc]⟩

theorem toList_member (k : String) (w : String) :
    (quote k ++ ": " ++ w).toList = '"' :: (keyText k ++ w.toList) := by
  simp [toList_quote, keyText]

/-- The members of an object, each value reading back and the keys distinct, separated by a
comma and a blank and closed by a brace. -/
theorem parseMembers_written (acc : Fields) (p : String × Value) (ps : Fields)
    (h : ∀ q ∈ p :: ps, q.2.ReadsBack) (hkeys : (Fields.keys (acc ++ p :: ps)).Nodup)
    (rest : List Char) :
    parseMembers acc ((", ".intercalate ((p :: ps).map fun q =>
        quote q.1 ++ ": " ++ q.2.write Layout.plain)).toList ++ '}' :: rest) =
      .ok (.obj (acc ++ p :: ps), rest) := by
  have hnew : p.1 ∉ Fields.keys acc := by
    simp only [Fields.keys, List.map_append, List.map_cons] at hkeys
    exact (List.nodup_middle.1 hkeys |> List.nodup_cons.1).1 ∘ fun h => List.mem_append_left _ h
  obtain ⟨hs, hp⟩ := h p (by simp)
  induction ps generalizing p acc with
  | nil =>
    rw [List.map_singleton, String.intercalate_singleton, toList_member]
    simp only [List.cons_append, List.append_assoc]
    rw [parseMembers_last acc p.1 (hp _ (endsNumber_of_head rest (by decide)))
      (hs.append _).skipBlank, Fields.insert_of_not_mem hnew]
  | cons q qs ih =>
    obtain ⟨t, ht⟩ := toList_intercalate_cons ", " (quote q.1 ++ ": " ++ q.2.write Layout.plain)
      (qs.map fun q => quote q.1 ++ ": " ++ q.2.write Layout.plain)
    have hnext : skipBlank ((", ".intercalate ((q :: qs).map fun q =>
        quote q.1 ++ ": " ++ q.2.write Layout.plain)).toList ++ '}' :: rest) =
        (", ".intercalate ((q :: qs).map fun q =>
          quote q.1 ++ ": " ++ q.2.write Layout.plain)).toList ++ '}' :: rest := by
      rw [List.map_cons, ht, toList_member]
      exact skipBlank_of_not_blank (by decide) _
    have hkeys' : (Fields.keys ((acc ++ [p]) ++ q :: qs)).Nodup := by simpa using hkeys
    have hnew' : q.1 ∉ Fields.keys (acc ++ [p]) := by
      simp only [Fields.keys, List.map_append, List.map_cons, List.map_nil] at hkeys' ⊢
      exact fun hq => (List.nodup_append.1 hkeys').2.2 _ hq _ (by simp) rfl
    obtain ⟨hqs, hq⟩ := h q (by simp)
    have hrest := ih (acc ++ [p]) q (fun r hr => h r (List.mem_cons_of_mem _ hr)) hkeys' hnew' hqs hq
    rw [List.map_cons] at hrest hnext
    rw [List.map_cons, List.map_cons, String.intercalate_cons_cons, String.toList_append,
      String.toList_append, toList_member, toList_itemSep]
    simp only [List.append_assoc, List.cons_append, List.nil_append]
    rw [parseMembers_comma acc p.1 (hp _ (endsNumber_of_head _ (by decide))) ((hs.append _).skipBlank)
      hnext, Fields.insert_of_not_mem hnew, hrest]
    simp

theorem toList_write_arr (xs : List Value) :
    (Value.write Layout.plain (.arr xs)).toList =
      '[' :: ((", ".intercalate (xs.map (·.write Layout.plain))).toList ++ [']']) := by
  simp [Value.write, writeItems_eq, Layout.plain]

theorem toList_write_obj (fs : Fields) :
    (Value.write Layout.plain (.obj fs)).toList =
      '{' :: ((", ".intercalate (fs.map fun q =>
        quote q.1 ++ ": " ++ q.2.write Layout.plain)).toList ++ ['}']) := by
  simp [Value.write, writeMembers_eq, joinMembers, orderMembers, Layout.plain, List.map_map,
    Function.comp_def]

/-- An array whose items read back reads back. -/
theorem parseValue_write_arr (xs : List Value) (h : ∀ x ∈ xs, x.ReadsBack) (rest : List Char) :
    parseValue ((Value.write Layout.plain (.arr xs)).toList ++ rest) = .ok (.arr xs, rest) := by
  rw [toList_write_arr, List.cons_append, parseValue.eq_4, List.append_assoc, List.singleton_append]
  cases xs with
  | nil =>
    rw [List.map_nil, String.intercalate_nil, String.toList_empty, List.nil_append,
      skipBlank_of_not_blank (by decide)]
    simp only []
  | cons x xs =>
    have hT := startsValue_intercalate x xs (h x (by simp)).1 (']' :: rest)
    rw [hT.skipBlank]
    obtain ⟨c, t, hct, -, hc, -⟩ := hT
    rw [hct]
    split
    · rename_i r heq
      injection heq with heq
      exact absurd heq hc
    · rw [dif_pos le_rfl, ← hct, parseItems_written [] x xs h rest]
      simp

/-- An object whose values read back and whose keys are distinct reads back. -/
theorem parseValue_write_obj (fs : Fields) (h : ∀ q ∈ fs, q.2.ReadsBack)
    (hkeys : (Fields.keys fs).Nodup) (rest : List Char) :
    parseValue ((Value.write Layout.plain (.obj fs)).toList ++ rest) = .ok (.obj fs, rest) := by
  rw [toList_write_obj, List.cons_append, parseValue.eq_3, List.append_assoc, List.singleton_append]
  cases fs with
  | nil =>
    rw [List.map_nil, String.intercalate_nil, String.toList_empty, List.nil_append,
      skipBlank_of_not_blank (by decide)]
    simp only []
  | cons p ps =>
    -- the members start with the quote of the first key
    obtain ⟨t, ht⟩ := toList_intercalate_cons ", " (quote p.1 ++ ": " ++ p.2.write Layout.plain)
      (ps.map fun q => quote q.1 ++ ": " ++ q.2.write Layout.plain)
    obtain ⟨t', ht'⟩ : ∃ t', (", ".intercalate ((p :: ps).map fun q =>
        quote q.1 ++ ": " ++ q.2.write Layout.plain)).toList ++ '}' :: rest = '"' :: t' :=
      ⟨_, by rw [List.map_cons, ht, toList_member, List.cons_append, List.cons_append]⟩
    rw [ht', skipBlank_of_not_blank (by decide)]
    split
    · rename_i r heq
      injection heq with heq
      exact absurd heq (by decide)
    · rw [dif_pos le_rfl, ← ht', parseMembers_written [] p ps h (by simpa using hkeys) rest,
        List.nil_append]

theorem floatText_of_isFinite {x : Float} (hf : Number.Binary64.isFinite x = true) :
    floatText x = Number.Shortest.render Number.Shortest.Style.standard x := by
  rw [floatText, Number.Binary64.isNaN_eq_false_of_isFinite hf, hf]
  rfl

/-- Every value the writer produces reads back from its text in the plain layout. -/
theorem readsBack_of_dumpable {v : Value} (hv : v.Dumpable) : v.ReadsBack := by
  induction hv with
  | null =>
    refine ⟨⟨'n', ['u', 'l', 'l'], by simp [Value.write], by decide, by decide, by decide⟩,
      fun rest _ => ?_⟩
    simpa [Value.write] using parseValue.eq_5 rest
  | bool b =>
    cases b
    · refine ⟨⟨'f', ['a', 'l', 's', 'e'], by simp [Value.write], by decide, by decide, by decide⟩,
        fun rest _ => ?_⟩
      simpa [Value.write] using parseValue.eq_7 rest
    · refine ⟨⟨'t', ['r', 'u', 'e'], by simp [Value.write], by decide, by decide, by decide⟩,
        fun rest _ => ?_⟩
      simpa [Value.write] using parseValue.eq_6 rest
  | @int n hlen =>
    have hw : Value.write Layout.plain (.int n) = toString n := rfl
    refine ⟨?_, fun rest hrest => ?_⟩
    · obtain ⟨t, ht, -⟩ := scanNumber_toString_int n (by simp [EndsNumber] : EndsNumber []) hlen
      rw [List.append_nil] at ht
      rw [hw]
      exact startsValue_of_scanNumber ht
    · obtain ⟨t, ht, hval⟩ := scanNumber_toString_int n hrest hlen
      rw [hw, parseValue_of_scanNumber ht, hval]
      rfl
  | @float x hf =>
    have hw : Value.write Layout.plain (.float x) =
        Number.Shortest.render Number.Shortest.Style.standard x := floatText_of_isFinite hf
    refine ⟨?_, fun rest hrest => ?_⟩
    · obtain ⟨t, ht, -⟩ := scanNumber_render hf (by simp [EndsNumber] : EndsNumber [])
      rw [List.append_nil] at ht
      rw [hw]
      exact startsValue_of_scanNumber ht
    · obtain ⟨t, ht, hval⟩ := scanNumber_render hf hrest
      rw [hw, parseValue_of_scanNumber ht, hval]
      rfl
  | str s =>
    refine ⟨⟨'"', _, by rw [Value.write, toList_quote, List.cons_append], by decide, by decide,
      by decide⟩, fun rest _ => parseValue_quote s rest⟩
  | arr _ ih =>
    refine ⟨⟨'[', _, toList_write_arr _, by decide, by decide, by decide⟩, fun rest _ => ?_⟩
    exact parseValue_write_arr _ ih rest
  | obj hkeys _ ih =>
    refine ⟨⟨'{', _, toList_write_obj _, by decide, by decide, by decide⟩, fun rest _ => ?_⟩
    exact parseValue_write_obj _ ih hkeys rest

/-! ### Whole documents -/

theorem skipBlank_blanks_append {pre : List Char} (hpre : ∀ c ∈ pre, isBlank c = true)
    (r : List Char) : skipBlank (pre ++ r) = skipBlank r := by
  induction pre with
  | nil => rfl
  | cons c pre ih =>
    rw [List.cons_append, skipBlank, if_pos (hpre c (by simp)),
      ih fun x hx => hpre x (List.mem_cons_of_mem _ hx)]

theorem endsNumber_of_blanks {post : List Char} (h : ∀ c ∈ post, isBlank c = true) :
    EndsNumber post := by
  intro c hc
  have hb := h c (List.mem_of_mem_head? hc)
  simp only [isBlank, Bool.or_eq_true, beq_iff_eq] at hb
  rcases hb with ((rfl | rfl) | rfl) | rfl <;> decide

/-- No value starts with a byte order mark. -/
theorem parseValue_byteOrderMark (r : List Char) :
    parseValue ('\uFEFF' :: r) = .error (.at .expectingValue (r.length + 1)) := by
  rw [parseValue.eq_def]
  simp [scanNumber, scanSign, scanWhole]

/-- The text of a value the writer produces, with blanks around it, reads as that value. -/
theorem parseChars_write {v : Value} (hv : v.Dumpable) {pre post : List Char}
    (hpre : ∀ c ∈ pre, isBlank c = true) (hpost : ∀ c ∈ post, isBlank c = true) :
    Value.parseChars (pre ++ (v.write Layout.plain).toList ++ post) = .ok v := by
  obtain ⟨hs, hrt⟩ := readsBack_of_dumpable hv
  have hend : skipBlank post = [] := by
    simpa [skipBlank] using skipBlank_blanks_append hpost []
  unfold Value.parseChars
  rw [List.append_assoc, skipBlank_blanks_append hpre, (hs.append post).skipBlank,
    hrt post (endsNumber_of_blanks hpost)]
  dsimp only
  rw [hend]

/-- The same as a text: the text cannot start with a byte order mark. -/
theorem parse_write {v : Value} (hv : v.Dumpable) {pre post : List Char}
    (hpre : ∀ c ∈ pre, isBlank c = true) (hpost : ∀ c ∈ post, isBlank c = true) :
    Value.parse (String.ofList (pre ++ (v.write Layout.plain).toList ++ post)) = .ok v := by
  unfold Value.parse
  rw [String.toList_ofList]
  split
  · rename_i rest h
    exfalso
    cases pre with
    | nil =>
      obtain ⟨hs, hrt⟩ := readsBack_of_dumpable hv
      have hp := hrt post (endsNumber_of_blanks hpost)
      rw [List.nil_append] at h
      rw [h, parseValue_byteOrderMark] at hp
      exact absurd hp (by simp)
    | cons c pre =>
      injection h with hc
      have := hpre c (by simp)
      rw [hc] at this
      exact absurd this (by decide)
  · exact parseChars_write hv hpre hpost

end OperandLifecycle.Json
