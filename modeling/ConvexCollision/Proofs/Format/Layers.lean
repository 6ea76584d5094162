import Mathlib.Data.List.Forall2
import Mathlib.Data.Nat.Bitwise
import ConvexCollision.Format.Layers

/-!
# ConvexCollision.Proofs.Format.Layers -- the text of a set of layers says which set it is

The parts of the text of a set are words without blanks and bars, with a bar between blanks after each but
the last one. Cutting such a text at its bars and trimming the pieces gives the parts again
(`map_trimBlank_splitBars`), each part gives back its own bits, and of the bits of a set every one belongs to
exactly one of its parts. So each of the sets is read back from its text, the bits without a name included
(`Layers.ofText?_text`).
-/

namespace ConvexCollision

/-! ## §A Hexadecimal digits -/

theorem hexValue?_digitChar : ∀ d < 16, hexValue? d.digitChar = some d := by decide

theorem hexNumber?_append (cs cs' : List Char) (value : Nat) :
    hexNumber? value (cs ++ cs') = (hexNumber? value cs).bind fun value => hexNumber? value cs' := by
  induction cs generalizing value with
  | nil => rfl
  | cons c cs ih =>
    show (hexValue? c).bind _ = ((hexValue? c).bind _).bind _
    cases hexValue? c with
    | none => rfl
    | some d => exact ih (16 * value + d)

/-- The digits of a number write it. -/
theorem hexNumber?_toDigits (n : Nat) : hexNumber? 0 (Nat.toDigits 16 n) = some n := by
  induction n using Nat.strongRecOn with
  | ind n ih =>
    rw [Nat.toDigits_eq_if (by decide)]
    split
    · next hlt =>
      show (hexValue? n.digitChar).bind _ = _
      rw [hexValue?_digitChar n hlt]
      show some (16 * 0 + n) = some n
      rw [Nat.mul_zero, Nat.zero_add]
    · next hge =>
      have hlt : n % 16 < 16 := Nat.mod_lt n (by decide)
      rw [hexNumber?_append, ih (n / 16) (Nat.div_lt_self (by omega) (by decide))]
      show (hexValue? (n % 16).digitChar).bind _ = _
      rw [hexValue?_digitChar _ hlt]
      show some (16 * (n / 16) + n % 16) = some n
      rw [Nat.div_add_mod]

/-- They are digits. -/
theorem exists_of_mem_toDigits {n : Nat} {c : Char} (h : c ∈ Nat.toDigits 16 n) :
    ∃ d < 16, c = Nat.digitChar d := by
  induction n using Nat.strongRecOn with
  | ind n ih =>
    rw [Nat.toDigits_eq_if (by decide)] at h
    split at h
    · next hlt => exact ⟨n, hlt, List.mem_singleton.mp h⟩
    · next hge =>
      rcases List.mem_append.mp h with h | h
      · exact ih (n / 16) (Nat.div_lt_self (by omega) (by decide)) h
      · exact ⟨n % 16, Nat.mod_lt n (by decide), List.mem_singleton.mp h⟩

/-! ## §B Words between bars -/

/-- A word without blanks and bars. -/
structure IsWord (cs : List Char) : Prop where
  /-- It has a character. -/
  ne_nil : cs ≠ []
  /-- None of them is a bar. -/
  no_bar : ∀ c ∈ cs, c ≠ '|'
  /-- None of them is blank. -/
  no_blank : ∀ c ∈ cs, isBlank c = false

/-- A list begins and ends without a blank. -/
structure IsTrimmed (cs : List Char) : Prop where
  /-- It does not begin with one. -/
  head : ∀ c ∈ cs.head?, isBlank c = false
  /-- It does not end with one. -/
  last : ∀ c ∈ cs.getLast?, isBlank c = false

theorem IsWord.isTrimmed {cs : List Char} (h : IsWord cs) : IsTrimmed cs :=
  ⟨fun c hc => h.no_blank c (List.mem_of_mem_head? hc),
    fun c hc => h.no_blank c (List.mem_of_mem_getLast? hc)⟩

theorem dropWhile_isBlank {cs : List Char} (h : ∀ c ∈ cs.head?, isBlank c = false) :
    cs.dropWhile isBlank = cs := by
  cases cs with
  | nil => rfl
  | cons c cs =>
    rw [List.dropWhile_cons, h c rfl]
    rfl

/-- Blanks around a list that is trimmed are trimmed, and nothing else. -/
theorem trimBlank_pad {before cs after : List Char} (hbefore : ∀ c ∈ before, isBlank c = true)
    (hafter : ∀ c ∈ after, isBlank c = true) (hne : cs ≠ []) (hcs : IsTrimmed cs) :
    trimBlank (before ++ (cs ++ after)) = cs := by
  have hhead : ∀ c ∈ (cs ++ after).head?, isBlank c = false := by
    intro c hc
    obtain ⟨first, rest, rfl⟩ := List.exists_cons_of_ne_nil hne
    exact hcs.head c hc
  have hlast : ∀ c ∈ cs.reverse.head?, isBlank c = false := by
    intro c hc
    rw [List.head?_reverse] at hc
    exact hcs.last c hc
  unfold trimBlank
  rw [List.dropWhile_append_of_pos hbefore, dropWhile_isBlank hhead, List.reverse_append,
    List.dropWhile_append_of_pos fun c hc => hafter c (List.mem_reverse.mp hc), dropWhile_isBlank hlast,
    List.reverse_reverse]

namespace Layers

theorem splitBars_cons {c : Char} (hc : c ≠ '|') (cs : List Char) {first : List Char}
    {rest : List (List Char)} (h : splitBars cs = first :: rest) :
    splitBars (c :: cs) = (c :: first) :: rest := by
  unfold splitBars at h ⊢
  rw [List.foldr_cons, h]
  split
  · exact absurd rfl hc
  · next heq =>
    cases heq
    rfl
  · next heq => cases heq

/-- A list without a bar is one piece. -/
theorem splitBars_of_no_bar {cs : List Char} (h : ∀ c ∈ cs, c ≠ '|') : splitBars cs = [cs] := by
  induction cs with
  | nil => rfl
  | cons c cs ih =>
    exact splitBars_cons (h c List.mem_cons_self) cs (ih fun c' hc => h c' (List.mem_cons_of_mem c hc))

/-- A bar ends a piece. -/
theorem splitBars_append_bar {cs : List Char} (h : ∀ c ∈ cs, c ≠ '|') (rest : List Char) :
    splitBars (cs ++ '|' :: rest) = cs :: splitBars rest := by
  induction cs with
  | nil => rfl
  | cons c cs ih =>
    exact splitBars_cons (h c List.mem_cons_self) _ (ih fun c' hc => h c' (List.mem_cons_of_mem c hc))

/-- **Words with bars between them are cut at the bars.** -/
theorem map_trimBlank_splitBars {words : List (List Char)} (hne : words ≠ [])
    (h : ∀ w ∈ words, IsWord w) {before : List Char} (hbefore : ∀ c ∈ before, isBlank c = true) :
    (splitBars (before ++ [' ', '|', ' '].intercalate words)).map trimBlank = words := by
  have hbar {cs : List Char} (hcs : ∀ c ∈ cs, isBlank c = true) : ∀ c ∈ cs, c ≠ '|' := by
    rintro c hc rfl
    exact absurd (hcs _ hc) (by decide)
  induction words generalizing before with
  | nil => exact absurd rfl hne
  | cons w words ih =>
    have hw := h w List.mem_cons_self
    rcases words with _ | ⟨w', words⟩
    · have hno : ∀ c ∈ before ++ w, c ≠ '|' := by
        intro c hc
        rcases List.mem_append.mp hc with hc | hc
        · exact hbar hbefore c hc
        · exact hw.no_bar c hc
      have htrim := trimBlank_pad hbefore (List.forall_mem_nil _) hw.ne_nil hw.isTrimmed
      rw [List.append_nil] at htrim
      rw [List.intercalate_singleton, splitBars_of_no_bar hno, List.map_singleton, htrim]
    · have hno : ∀ c ∈ before ++ (w ++ [' ']), c ≠ '|' := by
        intro c hc
        rcases List.mem_append.mp hc with hc | hc
        · exact hbar hbefore c hc
        rcases List.mem_append.mp hc with hc | hc
        · exact hw.no_bar c hc
        · rw [List.mem_singleton.mp hc]
          decide
      have hspace : ∀ c ∈ [' '], isBlank c = true := List.forall_mem_singleton.mpr rfl
      have hsplit : before ++ [' ', '|', ' '].intercalate (w :: w' :: words) =
          (before ++ (w ++ [' '])) ++ '|' :: ([' '] ++ [' ', '|', ' '].intercalate (w' :: words)) := by
        rw [List.intercalate_cons_cons]
        simp only [List.append_assoc, List.cons_append, List.nil_append]
      rw [hsplit, splitBars_append_bar hno, List.map_cons,
        trimBlank_pad hbefore hspace hw.ne_nil hw.isTrimmed,
        ih (List.cons_ne_nil w' words) (fun v hv => h v (List.mem_cons_of_mem w hv)) hspace]

/-- Words with bars between them begin and end with a word. -/
theorem isTrimmed_intercalate {words : List (List Char)} (hne : words ≠ []) (h : ∀ w ∈ words, IsWord w) :
    [' ', '|', ' '].intercalate words ≠ [] ∧ IsTrimmed ([' ', '|', ' '].intercalate words) := by
  induction words with
  | nil => exact absurd rfl hne
  | cons w words ih =>
    have hw := h w List.mem_cons_self
    rcases words with _ | ⟨w', words⟩
    · rw [List.intercalate_singleton]
      exact ⟨hw.ne_nil, hw.isTrimmed⟩
    · obtain ⟨hrest, htrim⟩ := ih (List.cons_ne_nil w' words) fun v hv => h v (List.mem_cons_of_mem w hv)
      rw [List.intercalate_cons_cons]
      refine ⟨fun hnil => hrest (List.append_eq_nil_iff.mp hnil).2, ?_, ?_⟩
      · intro c hc
        obtain ⟨first, rest, rfl⟩ := List.exists_cons_of_ne_nil hw.ne_nil
        exact hw.isTrimmed.head c hc
      · intro c hc
        rw [List.getLast?_append_of_ne_nil _ hrest] at hc
        exact htrim.last c hc

/-! ## §C Parts -/

/-- A name is a word and stands for its layer. -/
theorem names_read : ∀ n ∈ names, IsWord n.1.toList ∧ ofPart? n.1.toList = some n.2 := by
  have h : ∀ n ∈ names, (n.1.toList ≠ [] ∧ n.1.toList.all (fun c => c != '|' && !isBlank c) = true) ∧
      ofPart? n.1.toList = some n.2 := by decide
  intro n hn
  obtain ⟨⟨hne, hall⟩, hread⟩ := h n hn
  have hchar {c : Char} (hc : c ∈ n.1.toList) := Bool.and_eq_true_iff.mp (List.all_eq_true.mp hall c hc)
  have hbar (c : Char) (hc : c ∈ n.1.toList) : c ≠ '|' := bne_iff_ne.mp (hchar hc).1
  have hblank (c : Char) (hc : c ∈ n.1.toList) : isBlank c = false := (Bool.not_eq_true' _).mp (hchar hc).2
  exact ⟨⟨hne, hbar, hblank⟩, hread⟩

theorem toList_hexPart (n : Nat) : ("0x" ++ hexText n).toList = '0' :: 'x' :: Nat.toDigits 16 n := by
  rw [String.toList_append, hexText, String.toList_ofList, String.toList_ofList]
  rfl

/-- A number in hexadecimal digits is a word. -/
theorem isWord_hexPart (n : Nat) : IsWord ("0x" ++ hexText n).toList := by
  have hdigit : ∀ d < 16, Nat.digitChar d ≠ '|' ∧ isBlank (Nat.digitChar d) = false := by decide
  rw [toList_hexPart]
  have h {c : Char} (hc : c ∈ '0' :: 'x' :: Nat.toDigits 16 n) : c ≠ '|' ∧ isBlank c = false := by
    rcases List.mem_cons.mp hc with rfl | hc
    · decide
    rcases List.mem_cons.mp hc with rfl | hc
    · decide
    · obtain ⟨d, hd, rfl⟩ := exists_of_mem_toDigits hc
      exact hdigit d hd
  exact ⟨List.cons_ne_nil _ _, fun c hc => (h hc).1, fun c hc => (h hc).2⟩

/-- It stands for its bits. -/
theorem ofPart?_hexPart (l : Layers) : ofPart? ("0x" ++ hexText l.bits.toNat).toList = some l := by
  have hplus : ∀ d < 16, Nat.digitChar d ≠ '+' := by decide
  rw [toList_hexPart]
  show (hexWord? (Nat.toDigits 16 l.bits.toNat)).map Layers.mk = some l
  have hread : hexDigits? (Nat.toDigits 16 l.bits.toNat) = some l.bits := by
    unfold hexDigits?
    split
    · next h => exact absurd h Nat.toDigits_ne_nil
    · rw [hexNumber?_toDigits]
      show (if l.bits.toNat < UInt16.size then _ else _) = _
      rw [if_pos l.bits.toNat_lt_size, UInt16.ofNat_toNat]
  have hword : hexWord? (Nat.toDigits 16 l.bits.toNat) = hexDigits? (Nat.toDigits 16 l.bits.toNat) := by
    unfold hexWord?
    split
    · next cs h =>
      obtain ⟨d, hd, hc⟩ := exists_of_mem_toDigits (h ▸ List.mem_cons_self : '+' ∈ Nat.toDigits 16 _)
      exact absurd hc.symm (hplus d hd)
    · rfl
  rw [hword, hread]
  rfl

/-! ## §D All parts together -/

/-- The bits of a set that a layer of one bit has are all of its bits or none. -/
theorem and_eq_of_bit (a : UInt16) {b : UInt16} {i : Nat} (hb : b.toNat = 2 ^ i) (h : a &&& b ≠ b) :
    a &&& b = 0 := by
  have hand : (a &&& b).toNat = (a.toNat.testBit i).toNat * 2 ^ i := by
    rw [UInt16.toNat_and, hb, Nat.and_two_pow]
  cases hbit : a.toNat.testBit i with
  | false =>
    rw [hbit, Bool.toNat_false, Nat.zero_mul] at hand
    exact UInt16.toNat_inj.mp hand
  | true =>
    rw [hbit, Bool.toNat_true, Nat.one_mul, ← hb] at hand
    exact absurd (UInt16.toNat_inj.mp hand) h

theorem and_or_distrib_left (a b c : UInt16) : a &&& (b ||| c) = (a &&& b) ||| (a &&& c) := by
  rw [← UInt16.toBitVec_inj]
  exact BitVec.and_or_distrib_left

/-- The layers of one bit that a set contains make up the bits that it has of all of them. -/
theorem foldl_union_filter (l : Layers) (ns : List (String × Layers))
    (h : ∀ n ∈ ns, ∃ i, n.2.bits.toNat = 2 ^ i) (found : Layers) :
    ((ns.filter fun n => l.contains n.2).map (·.2)).foldl union found =
      found.union ⟨l.bits &&& ns.foldr (fun n bits => n.2.bits ||| bits) 0⟩ := by
  induction ns generalizing found with
  | nil =>
    show found = ⟨found.bits ||| (l.bits &&& 0)⟩
    rw [UInt16.and_zero, UInt16.or_zero]
  | cons n ns ih =>
    obtain ⟨i, hi⟩ := h n List.mem_cons_self
    have hrest := ih fun m hm => h m (List.mem_cons_of_mem n hm)
    let contained : String × Layers → Bool := fun n => l.contains n.2
    rw [List.foldr_cons, and_or_distrib_left]
    by_cases hn : l.bits &&& n.2.bits = n.2.bits
    · have hcontains : l.contains n.2 = true := beq_iff_eq.mpr hn
      rw [List.filter_cons_of_pos (p := contained) hcontains, List.map_cons, List.foldl_cons, hrest, hn]
      exact congrArg mk (UInt16.or_assoc _ _ _)
    · have hcontains : ¬ l.contains n.2 = true := fun hc => hn (beq_iff_eq.mp hc)
      rw [List.filter_cons_of_neg (p := contained) hcontains, hrest, and_eq_of_bit l.bits hi hn,
        UInt16.zero_or]

/-- The layers of the parts of the text of a set, in order. -/
def partLayers (l : Layers) : List Layers :=
  (names.filter fun n => l.contains n.2).map (·.2) ++ if l.unnamed == empty then [] else [l.unnamed]

/-- They make up the set. -/
theorem foldl_union_partLayers (l : Layers) : l.partLayers.foldl union empty = l := by
  have hbits : ∀ n ∈ names, ∃ i < 16, n.2.bits.toNat = 2 ^ i := by decide
  have hnamed : ((names.filter fun n => l.contains n.2).map (·.2)).foldl union empty =
      ⟨l.bits &&& all.bits⟩ := by
    rw [foldl_union_filter l names fun n hn => (hbits n hn).imp fun i hi => hi.2]
    show Layers.mk (0 ||| (l.bits &&& 63)) = _
    rw [UInt16.zero_or]
    rfl
  have hwhole : Layers.union ⟨l.bits &&& all.bits⟩ l.unnamed = l := by
    show Layers.mk ((l.bits &&& all.bits) ||| (l.bits &&& ~~~all.bits)) = l
    rw [← and_or_distrib_left]
    show Layers.mk (l.bits &&& -1) = l
    rw [UInt16.and_neg_one]
  rw [partLayers, List.foldl_append, hnamed]
  split
  · next hnone =>
    rw [beq_iff_eq.mp hnone] at hwhole
    have hzero : Layers.union ⟨l.bits &&& all.bits⟩ empty = ⟨l.bits &&& all.bits⟩ :=
      congrArg mk (UInt16.or_zero)
    rw [← hzero]
    exact hwhole
  · exact hwhole

/-- Every part of the text of a set is a word that stands for its layers. -/
theorem parts_read (l : Layers) :
    List.Forall₂ (fun part found => IsWord part ∧ ofPart? part = some found) (l.parts.map String.toList)
      l.partLayers := by
  rw [parts, partLayers, List.map_append, List.map_map]
  refine List.rel_append ?_ ?_
  · rw [List.forall₂_map_left_iff, List.forall₂_map_right_iff, List.forall₂_same]
    exact fun n hn => names_read n (List.mem_of_mem_filter hn)
  · split
    · exact .nil
    · exact .cons ⟨isWord_hexPart _, ofPart?_hexPart l.unnamed⟩ .nil

/-- Words that stand for layers are read one after the other. -/
theorem foldlM_ofPart? {words : List (List Char)} {found : List Layers}
    (h : List.Forall₂ (fun part found => IsWord part ∧ ofPart? part = some found) words found) (l : Layers) :
    words.foldlM (fun l part => (ofPart? part).map l.union) l = some (found.foldl union l) := by
  induction h generalizing l with
  | nil => rfl
  | cons hw _ ih =>
    rw [List.foldlM_cons, hw.2]
    exact ih _

/-- **A set is read back from its text**, whatever its bits. -/
theorem ofText?_text (l : Layers) : ofText? l.text = some l := by
  have hfold := foldlM_ofPart? l.parts_read empty
  rw [foldl_union_partLayers] at hfold
  have hwords : ∀ w ∈ l.parts.map String.toList, IsWord w := by
    intro w hw
    obtain ⟨i, hi, rfl⟩ := List.mem_iff_getElem.mp hw
    exact (l.parts_read.get hi (l.parts_read.length_eq ▸ hi)).1
  have htext : l.text.toList = [' ', '|', ' '].intercalate (l.parts.map String.toList) :=
    String.toList_intercalate
  unfold ofText?
  rw [htext]
  by_cases hne : l.parts.map String.toList = []
  · rw [hne] at hfold ⊢
    exact hfold
  · obtain ⟨hfull, htrim⟩ := isTrimmed_intercalate hne hwords
    have hall := trimBlank_pad (List.forall_mem_nil _) (List.forall_mem_nil _) hfull htrim
    rw [List.append_nil, List.nil_append] at hall
    have hsplit := map_trimBlank_splitBars hne hwords (List.forall_mem_nil _)
    rw [List.nil_append] at hsplit
    rw [hall, if_neg fun hempty => hfull (List.isEmpty_iff.mp hempty), ← hfold]
    nth_rewrite 2 [← hsplit]
    rw [List.foldlM_map]

end Layers

end ConvexCollision
