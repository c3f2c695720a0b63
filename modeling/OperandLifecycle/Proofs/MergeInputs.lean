import OperandLifecycle.Proofs.JsonText
import OperandLifecycle.Proofs.SelectorGrammar
import OperandLifecycle.Json.Overlay
/-!
# One object, three forms

A side of a merge may be handed over as a decoded object, as JSON text or as JSON bytes
(`Document`). `merge_reads_every_form` says the three agree: the text the writer produces in its
plain layout, with any blanks around it, and the UTF-8 bytes of that text decode to the object
itself, so the merge of two objects does not depend on the forms they come in. An absent side,
blank text, blank bytes and the document `null` all stand for the empty object, and a value
that is no object stops the merge with a failure that names the side and the value's type.

Reading the bytes rests on the writer's text being printable ASCII (`printable_write`): every
other character is escaped. So the UTF-8 bytes of the text are the codes of its characters, the
encoding they show is UTF-8, and they decode back to the text.
-/

namespace OperandLifecycle.Json

open Parse Text

/-! ## The writer's text is printable ASCII -/

/-- A printable ASCII character, from the blank to the tilde. -/
def Printable (c : Char) : Prop := 0x20 ≤ c.toNat ∧ c.toNat < 0x7f

instance : DecidablePred Printable := fun _ => inferInstanceAs (Decidable (_ ∧ _))

theorem printable_digitChar {v : ℕ} (hv : v < 16) : Printable (Nat.digitChar v) := by
  interval_cases v <;> decide

theorem printable_of_isDigit {c : Char} (h : c.isDigit = true) : Printable c := by
  simp only [Char.isDigit, Bool.and_eq_true, decide_eq_true_eq] at h
  have h0 : '0'.toNat ≤ c.toNat := h.1
  have h9 : c.toNat ≤ '9'.toNat := h.2
  exact ⟨le_trans (by decide) h0, lt_of_le_of_lt h9 (by decide)⟩

theorem printable_hex4Text (n : ℕ) : ∀ d ∈ (hex4Text n).toList, Printable d := by
  intro d hd
  simp only [toList_hex4Text, List.mem_cons, List.not_mem_nil, or_false] at hd
  rcases hd with rfl | rfl | rfl | rfl
  all_goals exact printable_digitChar (Nat.mod_lt _ (by norm_num))

theorem printable_escapeChar (c : Char) : ∀ d ∈ (escapeChar c).toList, Printable d := by
  have hmark : ∀ d ∈ ("\\u" : String).toList, Printable d := by simp [Printable]
  unfold escapeChar
  split
  case h_8 =>
    dsimp only
    split_ifs with hp hbmp
    · -- printable ASCII stands for itself
      intro d hd
      rw [String.toList_singleton, List.mem_singleton] at hd
      exact hd ▸ hp
    · -- a four-digit escape
      intro d hd
      rw [String.toList_append, List.mem_append] at hd
      exact hd.elim (hmark d) (printable_hex4Text _ d)
    · -- above the first plane, a surrogate pair
      intro d hd
      simp only [String.toList_append, List.mem_append] at hd
      rcases hd with ((h | h) | h) | h
      · exact hmark d h
      · exact printable_hex4Text _ d h
      · exact hmark d h
      · exact printable_hex4Text _ d h
  -- the simple escapes
  all_goals simp [Printable]

theorem printable_quote (s : String) : ∀ d ∈ (quote s).toList, Printable d := by
  intro d hd
  rw [toList_quote] at hd
  simp only [List.cons_append, List.mem_cons, List.mem_append, List.mem_flatMap] at hd
  rcases hd with rfl | ⟨c, -, hc⟩ | rfl | hnil
  · decide
  · exact printable_escapeChar c d hc
  · decide
  · cases hnil

theorem printable_toString_int (n : ℤ) : ∀ d ∈ (toString n).toList, Printable d := by
  intro d hd
  cases n with
  | ofNat m =>
    simp [Int.toString_eq_repr, Int.repr] at hd
    exact printable_of_isDigit (Nat.isDigit_of_mem_toDigits (by decide) (by decide) hd)
  | negSucc m =>
    simp [Int.toString_eq_repr, Int.repr] at hd
    rcases hd with rfl | hd
    · decide
    · exact printable_of_isDigit (Nat.isDigit_of_mem_toDigits (by decide) (by decide) hd)

/-- A float laid out from its digits uses only those digits, zeros, a point, an `e` and signs. -/
theorem printable_layout (st : Number.Shortest.Style) {ds : List Char}
    (hds : ∀ d ∈ ds, d.isDigit = true) (p : ℤ) :
    ∀ c ∈ (Number.Shortest.layout st ds p).toList, Printable c := by
  have hdig : ∀ d ∈ ds, Printable d := fun d h => printable_of_isDigit (hds d h)
  unfold Number.Shortest.layout
  split_ifs with hpos hle hlt
  · -- `0.`, zeros, then the digits
    simp only [String.toList_append, String.toList_ofList, List.forall_mem_append,
      List.mem_replicate]
    exact ⟨by simp [Printable], fun c h => h.2 ▸ by decide, hdig⟩
  · -- the point among the digits
    simp only [String.toList_append, String.toList_ofList, List.forall_mem_append]
    exact ⟨⟨fun c h => hdig c (List.mem_of_mem_take h), by simp [Printable]⟩,
      fun c h => hdig c (List.mem_of_mem_drop h)⟩
  · -- the digits, zeros, then `.0`
    simp only [String.toList_append, String.toList_ofList, List.forall_mem_append,
      List.mem_replicate]
    exact ⟨⟨hdig, fun c h => h.2 ▸ by decide⟩, by simp [Printable]⟩
  · -- one digit, the others after a point, then the exponent
    have hexp : ∀ n : ℕ, (∀ c ∈ List.replicate n '0', Printable c) ∧
        ∀ c ∈ Number.Shortest.decimalText (p - 1).natAbs, Printable c := fun n =>
      ⟨fun c h => (List.mem_replicate.1 h).2 ▸ by decide,
        fun c h => printable_of_isDigit (decimalText_digits _ c h)⟩
    simp only [String.toList_append, String.toList_ofList, List.forall_mem_append]
    refine ⟨⟨⟨?_, by simp [Printable]⟩, by split <;> simp [Printable]⟩, hexp _⟩
    -- the mantissa: a lone digit, or a digit, a point and the other digits
    rcases ds with _ | ⟨d, _ | ⟨d', rest⟩⟩
    · simp [Printable]
    · simpa using hdig
    · simp only [String.toList_append, String.toList_singleton, String.toList_ofList,
        List.forall_mem_append]
      exact ⟨⟨by simpa using hdig d (by simp), by simp [Printable]⟩,
        fun c h => hdig c (List.mem_cons_of_mem _ h)⟩

theorem printable_floatText {x : Float} (hf : Number.Binary64.isFinite x = true) :
    ∀ c ∈ (floatText x).toList, Printable c := by
  rw [floatText_of_isFinite hf, render_of_isFinite hf]
  simp only [String.toList_append, List.forall_mem_append]
  refine ⟨by split <;> simp [Printable], ?_⟩
  split
  · simp [Printable]
  · exact printable_layout _ (decimalText_digits _) _

/-- Texts joined by a comma and a blank, each printable, are printable. -/
theorem printable_intercalate {ts : List String} (h : ∀ t ∈ ts, ∀ c ∈ t.toList, Printable c) :
    ∀ c ∈ (", ".intercalate ts).toList, Printable c := by
  rw [String.toList_intercalate]
  refine Cluster.forall_mem_intercalate (by simp [Printable]) ?_
  simpa using h

/-- The writer's text in the plain layout is printable ASCII. -/
theorem printable_write {v : Value} (hv : v.Dumpable) :
    ∀ c ∈ (v.write Layout.plain).toList, Printable c := by
  induction hv with
  | null => simp [Value.write, Printable]
  | bool b => cases b <;> simp [Value.write, Printable]
  | int _ => exact printable_toString_int _
  | float hf => exact printable_floatText hf
  | str s => exact printable_quote s
  | arr _ ih =>
    rw [toList_write_arr]
    simp only [List.forall_mem_cons, List.forall_mem_append]
    refine ⟨by decide, printable_intercalate ?_, by simp [Printable]⟩
    simpa using ih
  | obj _ _ ih =>
    rw [toList_write_obj]
    simp only [List.forall_mem_cons, List.forall_mem_append]
    refine ⟨by decide, printable_intercalate ?_, by simp [Printable]⟩
    -- a member is its quoted key, a colon and a blank, and its value
    simp only [List.mem_map, forall_exists_index, and_imp]
    rintro _ q hq rfl
    simp only [String.toList_append, List.forall_mem_append]
    exact ⟨⟨printable_quote q.1, by simp [Printable]⟩, ih q hq⟩

/-! ## The bytes of ASCII text -/

/-- `ByteArray.toList` walks the array from a position, pushing onto a reversed prefix. -/
theorem ByteArray.toList_loop_eq (bs : ByteArray) (i : ℕ) (r : List UInt8) :
    ByteArray.toList.loop bs i r = r.reverse ++ bs.data.toList.drop i := by
  fun_induction ByteArray.toList.loop bs i r with
  | case1 i r h ih =>
    have hi : i < bs.data.toList.length := by simpa using h
    rw [ih, List.drop_eq_getElem_cons hi]
    simp [ByteArray.get!, h]
  | case2 i r h =>
    rw [List.drop_eq_nil_of_le (by simpa using Nat.le_of_not_lt h)]
    simp

theorem ByteArray.toList_eq_data_toList (bs : ByteArray) : bs.toList = bs.data.toList := by
  simp [ByteArray.toList, ByteArray.toList_loop_eq]

/-- A character that UTF-8 writes as one byte, and not the zero byte. -/
def OneByte (c : Char) : Prop := 0 < c.toNat ∧ c.toNat < 0x80

instance : DecidablePred OneByte := fun _ => inferInstanceAs (Decidable (_ ∧ _))

theorem oneByte_of_printable {c : Char} (h : Printable c) : OneByte c :=
  ⟨by have := h.1; omega, by have := h.2; omega⟩

theorem oneByte_of_isBlank {c : Char} (h : isBlank c = true) : OneByte c := by
  simp only [isBlank, Bool.or_eq_true, beq_iff_eq] at h
  rcases h with ((rfl | rfl) | rfl) | rfl <;> decide

/-- The byte of a one-byte character. -/
def OneByte.byte (c : Char) : UInt8 := UInt8.ofNat c.toNat

theorem OneByte.toNat_byte {c : Char} (h : OneByte c) : (OneByte.byte c).toNat = c.toNat := by
  simp [OneByte.byte, Nat.mod_eq_of_lt (show c.toNat < 256 by have := h.2; omega)]

/-- Text of one-byte characters is, in UTF-8, the list of their codes. -/
theorem utf8Bytes_of_oneByte {cs : List Char} (h : ∀ c ∈ cs, OneByte c) :
    utf8Bytes (String.ofList cs) = cs.map OneByte.byte := by
  rw [utf8Bytes, String.toUTF8, String.toByteArray_ofList, List.utf8Encode,
    ByteArray.toList_eq_data_toList, List.toList_data_toByteArray]
  induction cs with
  | nil => rfl
  | cons c cs ih =>
    have hc : c.toNat ≤ 127 := by have := (h c List.mem_cons_self).2; omega
    rw [List.flatMap_cons, List.map_cons, ih fun d hd => h d (List.mem_cons_of_mem _ hd)]
    simp [String.utf8EncodeChar, OneByte.byte, hc]

/-- Bytes below `0x80` decode one character each, the character of that code. -/
theorem decodeUtf8_oneByte (pos : ℕ) (acc : List Char) {cs : List Char}
    (h : ∀ c ∈ cs, OneByte c) :
    decodeUtf8 pos acc (cs.map OneByte.byte) = .ok (String.ofList (acc.reverse ++ cs)) := by
  induction cs generalizing pos acc with
  | nil => simp [decodeUtf8]
  | cons c cs ih =>
    have hc := h c List.mem_cons_self
    have hlow : OneByte.byte c < 0x80 := by
      rw [UInt8.lt_iff_toNat_lt, hc.toNat_byte]
      exact hc.2
    rw [List.map_cons, decodeUtf8.eq_def]
    dsimp only
    rw [if_pos hlow, hc.toNat_byte, Char.ofNat_toNat,
      ih _ _ fun d hd => h d (List.mem_cons_of_mem _ hd)]
    simp

/-- Bytes between `0x01` and `0x7F` show the UTF-8 encoding: no zero byte says UTF-16 or
UTF-32, and no byte order mark can start them. -/
theorem detect_oneByte {cs : List Char} (h : ∀ c ∈ cs, OneByte c) :
    Encoding.detect (cs.map OneByte.byte) = .utf8 := by
  -- no byte is zero, nor a byte that only a mark of another encoding starts with
  have hne : ∀ b ∈ cs.map OneByte.byte, b ≠ 0 ∧ 0 ≠ b ∧ 0xFE ≠ b ∧ 0xFF ≠ b ∧ 0xEF ≠ b := by
    simp only [List.mem_map, forall_exists_index, and_imp]
    rintro _ c hc rfl
    have hb := (h c hc).toNat_byte
    have := h c hc
    refine ⟨?_, ?_, ?_, ?_, ?_⟩ <;> intro he <;> have hn := congrArg UInt8.toNat he <;>
      simp only [hb, UInt8.toNat_ofNat] at hn <;> simp [OneByte] at this <;> omega
  generalize cs.map OneByte.byte = bs at hne
  rcases bs with _ | ⟨b0, _ | ⟨b1, rest⟩⟩
  · rfl
  · simp [Encoding.detect, List.isPrefixOf]
  · obtain ⟨h0, h0', h1, h2, h3⟩ := hne b0 (by simp)
    obtain ⟨h4, h4', -⟩ := hne b1 (by simp)
    rcases rest with _ | ⟨b2, _ | ⟨b3, rest⟩⟩ <;>
      simp [Encoding.detect, List.isPrefixOf, h0, h0', h1, h2, h3, h4, h4']

/-- The UTF-8 bytes of text of one-byte characters decode, as JSON bytes, to the text. -/
theorem decodeJsonBytes_oneByte {cs : List Char} (h : ∀ c ∈ cs, OneByte c) :
    decodeJsonBytes (utf8Bytes (String.ofList cs)) = .ok (String.ofList cs) := by
  rw [utf8Bytes_of_oneByte h]
  unfold decodeJsonBytes
  rw [detect_oneByte h]
  exact decodeUtf8_oneByte 0 [] h

/-! ## Decoding a side -/

/-- The forms in which a value is handed to a merge: the value itself, its text in the writer's
plain layout with blanks around it, or the UTF-8 bytes of that text. -/
inductive Document.Presents (v : Value) : Document → Prop
  | value : Presents v (.value v)
  | text {pre post : List Char} : (∀ c ∈ pre, isBlank c = true) →
      (∀ c ∈ post, isBlank c = true) →
      Presents v (.text (String.ofList (pre ++ (v.write Layout.plain).toList ++ post)))
  | bytes {pre post : List Char} : (∀ c ∈ pre, isBlank c = true) →
      (∀ c ∈ post, isBlank c = true) →
      Presents v (.bytes (utf8Bytes (String.ofList (pre ++ (v.write Layout.plain).toList ++ post))))

/-- The forms that hold no document: an absent side, blank text and blank bytes. -/
inductive Document.Blank : Document → Prop
  | absent : Blank .absent
  | text {s : String} : isBlankText s = true → Blank (.text s)
  | bytes {bs : List UInt8} : isBlankBytes bs = true → Blank (.bytes bs)

/-- The writer's text starts with a printable character other than the blank. -/
theorem write_head {v : Value} (hv : v.Dumpable) :
    ∃ c r, (v.write Layout.plain).toList = c :: r ∧ 0x20 < c.toNat ∧ c.toNat < 0x7f := by
  obtain ⟨c, r, hcr, hblank, -, -⟩ := (readsBack_of_dumpable hv).1
  have hp := printable_write hv c (by rw [hcr]; exact List.mem_cons_self)
  have hsp : c.toNat ≠ 0x20 := fun h => by
    rw [show c = ' ' from Char.toNat_inj.1 h] at hblank
    exact absurd hblank (by decide)
  exact ⟨c, r, hcr, by have := hp.1; omega, hp.2⟩

/-- Written text with blanks around it is not blank: its value's first character is no white
space. -/
theorem isBlankText_written {v : Value} (hv : v.Dumpable) (pre post : List Char) :
    isBlankText (String.ofList (pre ++ (v.write Layout.plain).toList ++ post)) = false := by
  obtain ⟨c, r, hcr, h1, h2⟩ := write_head hv
  have hsp : isSpace c = false := by
    unfold isSpace
    simp only [Bool.or_eq_false_iff, decide_eq_false_iff_not, beq_eq_false_iff_ne]
    omega
  rw [Bool.eq_false_iff]
  intro h
  rw [isBlankText_iff, String.toList_ofList] at h
  rw [h c (by simp [hcr])] at hsp
  exact Bool.noConfusion hsp

/-- The same for the bytes of such a text: the value's first byte is no white space. -/
theorem isBlankBytes_written {v : Value} (hv : v.Dumpable) {pre post : List Char}
    (hone : ∀ c ∈ pre ++ (v.write Layout.plain).toList ++ post, OneByte c) :
    isBlankBytes (utf8Bytes (String.ofList (pre ++ (v.write Layout.plain).toList ++ post))) =
      false := by
  obtain ⟨c, r, hcr, h1, h2⟩ := write_head hv
  have hc : OneByte c := hone c (by simp [hcr])
  have hsp : isAsciiSpace (OneByte.byte c) = false := by
    rw [← hc.toNat_byte] at h1 h2
    unfold isAsciiSpace
    simp only [Bool.or_eq_false_iff, beq_eq_false_iff_ne]
    refine ⟨⟨⟨⟨⟨?_, ?_⟩, ?_⟩, ?_⟩, ?_⟩, ?_⟩ <;> intro he <;> rw [he] at h1 h2 <;> simp at h1 h2
  rw [utf8Bytes_of_oneByte hone, Bool.eq_false_iff]
  intro h
  rw [isBlankBytes, List.all_eq_true] at h
  rw [h _ (List.mem_map_of_mem (by simp [hcr]))] at hsp
  exact Bool.noConfusion hsp

/-- Every character of written text with blanks around it is one byte in UTF-8. -/
theorem oneByte_written {v : Value} (hv : v.Dumpable) {pre post : List Char}
    (hpre : ∀ c ∈ pre, isBlank c = true) (hpost : ∀ c ∈ post, isBlank c = true) :
    ∀ c ∈ pre ++ (v.write Layout.plain).toList ++ post, OneByte c := by
  simp only [List.forall_mem_append]
  exact ⟨⟨fun c h => oneByte_of_isBlank (hpre c h),
    fun c h => oneByte_of_printable (printable_write hv c h)⟩,
    fun c h => oneByte_of_isBlank (hpost c h)⟩

/-- Every form of a value the writer produces decodes as the value itself does. -/
theorem decode_of_presents {v : Value} (hv : v.Dumpable) {doc : Document} (h : doc.Presents v)
    (side : Side) : doc.decode side = side.members v := by
  cases h with
  | value => rfl
  | text hpre hpost =>
    rw [Document.decode, if_neg (by rw [isBlankText_written hv]; decide),
      parse_write hv hpre hpost]
  | bytes hpre hpost =>
    have hone := oneByte_written hv hpre hpost
    rw [Document.decode, if_neg (by rw [isBlankBytes_written hv hone]; decide),
      decodeJsonBytes_oneByte hone]
    dsimp only
    rw [String.toList_ofList, parseChars_write hv hpre hpost]

/-- A form that holds no document decodes as the empty object. -/
theorem decode_of_blank {doc : Document} (h : doc.Blank) (side : Side) :
    doc.decode side = .ok [] := by
  cases h with
  | absent => rfl
  | text hs => rw [Document.decode, if_pos hs]
  | bytes hbs => rw [Document.decode, if_pos hbs]

/-- A decoded side that is neither an object nor `null` is refused, with its type named. -/
theorem Side.members_of_not_obj (side : Side) {v : Value} (hnull : v ≠ .null)
    (hobj : ∀ fs, v ≠ .obj fs) :
    side.members v =
      .error (.merge ("Merge " ++ side.label ++ " must be a JSON object, got " ++ v.typeName)) := by
  cases v with
  | null => exact absurd rfl hnull
  | obj fs => exact absurd rfl (hobj fs)
  | _ => rfl

/-! ## Merging in any form -/

/-- A merge does not depend on the forms its sides come in. Two objects the writer can write
merge to the overlay of their members whether each comes as the object, as its text with blanks
around it or as the UTF-8 bytes of that text. A side that holds no document, or holds the
document `null`, acts as the empty object on either side. A side that holds any other value that
is no object stops the merge with a failure that names the side and the value's type. -/
theorem merge_reads_every_form {d o : Fields} (hd : (Value.obj d).Dumpable)
    (ho : (Value.obj o).Dumpable) :
    (∀ t u : Document, t.Presents (.obj d) → u.Presents (.obj o) →
      mergeDocuments t u = .ok (d.overlay o)) ∧
    (∀ e : Document, e.Blank ∨ e.Presents .null → ∀ t : Document,
      mergeDocuments e t = mergeDocuments (.value (.obj [])) t ∧
        mergeDocuments t e = mergeDocuments t (.value (.obj []))) ∧
    (∀ (v : Value) (t : Document), v.Dumpable → v ≠ .null → (∀ fs, v ≠ .obj fs) →
      t.Presents v →
      (∀ u, mergeDocuments t u =
        .error (.merge ("Merge template must be a JSON object, got " ++ v.typeName))) ∧
      (∀ u, u.Presents (.obj d) → mergeDocuments u t =
        .error (.merge ("Merge override must be a JSON object, got " ++ v.typeName)))) := by
  refine ⟨?_, ?_, ?_⟩
  · intro t u ht hu
    rw [mergeDocuments, decode_of_presents hd ht, decode_of_presents ho hu]
    rfl
  · -- both kinds of empty side decode as the empty object does
    intro e he t
    have hempty : ∀ side, e.decode side = .ok [] := by
      rcases he with hb | hn
      · exact decode_of_blank hb
      · exact fun side => decode_of_presents .null hn side
    exact ⟨by rw [mergeDocuments, mergeDocuments, hempty]; rfl,
      by rw [mergeDocuments, mergeDocuments, hempty]; rfl⟩
  · intro v t hv hnull hobj ht
    have hrefused := fun side => (decode_of_presents hv ht side).trans
      (Side.members_of_not_obj side hnull hobj)
    refine ⟨fun u => ?_, fun u hu => ?_⟩
    · rw [mergeDocuments, hrefused]
      rfl
    · rw [mergeDocuments, decode_of_presents hd hu, hrefused]
      rfl

theorem merge_reads_text_and_bytes :
    (Value.obj [("a", .int 1), ("b", .str "x")]).Dumpable ∧
    (Value.obj [("a", .obj [("c", .bool true)])]).Dumpable ∧
    mergeDocuments
        (.text (String.ofList ([' '] ++
          ((Value.obj [("a", .int 1), ("b", .str "x")]).write Layout.plain).toList ++ ['\n'])))
        (.bytes (utf8Bytes (String.ofList ([] ++
          ((Value.obj [("a", .obj [("c", .bool true)])]).write Layout.plain).toList ++ [])))) =
      .ok (Fields.overlay [("a", .int 1), ("b", .str "x")] [("a", .obj [("c", .bool true)])]) := by
  have hd : (Value.obj [("a", .int 1), ("b", .str "x")]).Dumpable := by
    refine .obj (by decide) ?_
    simp only [List.forall_mem_cons]
    exact ⟨.int (by decide), .str "x", by simp⟩
  have hc : (Value.obj [("c", .bool true)]).Dumpable := by
    refine .obj (by decide) ?_
    simp only [List.forall_mem_cons]
    exact ⟨.bool true, by simp⟩
  have ho : (Value.obj [("a", .obj [("c", .bool true)])]).Dumpable := by
    refine .obj (by decide) ?_
    simp only [List.forall_mem_cons]
    exact ⟨hc, by simp⟩
  exact ⟨hd, ho, (merge_reads_every_form hd ho).1 _ _
    (.text (by simp [isBlank]) (by simp [isBlank])) (.bytes (by simp) (by simp))⟩

end OperandLifecycle.Json
