/-
  Depot — what a node takes from an announcement.

  `announce` writes entries one after the other up to the end mark.  `peers_announce` reads them
  back: an announced map in any order gives its entries of the node's group, whatever follows
  the mark.  `Front` is a stream up to its first end mark, and all that counts of it
  (`ofReads_front`): a text is cut at the mark where the bytes are (`lossyChars_mark`), and what
  is behind the mark is no part of the `body` (`body_append_mark`).
-/
import Depot.Peer.Announcement
import Depot.Proofs.Table
import Depot.Proofs.Text.Fields
import Depot.Proofs.Text.Lossy
import Mathlib

namespace Depot.Announcement

/-! ## Announced maps -/

/-- The text of an entry. -/
def entryText (e : ShardId × String) : List Char := (toString e.1).toList ++ ':' :: e.2.toList

/-- What stands before the first entry. -/
def heading : List Char := "addresses".toList

/-- An announcement of entries, with text behind it. -/
def announce (entries : List (ShardId × String)) (after : List Char) : List Char :=
  heading ++ (entries.flatMap fun e => ';' :: entryText e) ++ (endMark ++ after)

/-- An address that can be announced: without a separator, and without blanks at its ends. -/
def Plain (address : String) : Prop := ';' ∉ address.toList ∧ Text.Tight address.toList

instance (address : String) : Decidable (Plain address) := inferInstanceAs (Decidable (_ ∧ _))

/-- The shard is another one of the node's group. -/
def Kept (own groupSize shard : ShardId) : Prop :=
  shard ≠ own ∧ shard % groupSize = own % groupSize

instance (own groupSize shard : ShardId) : Decidable (Kept own groupSize shard) :=
  inferInstanceAs (Decidable (_ ∧ _))

/-! ## The body -/

theorem body_append {cs : List Char} (h : ';' ∉ cs) (rest : List Char) :
    body (cs ++ rest) = cs ++ body rest := by
  induction cs with
  | nil => rfl
  | cons c cs ih =>
    obtain ⟨hc, hcs⟩ := List.ne_and_not_mem_of_not_mem_cons h
    rw [List.cons_append, body, if_neg (by simp [endMark, List.isPrefixOf, hc]), ih hcs,
      List.cons_append]

theorem body_separator {c : Char} (h : c ≠ 'E') (rest : List Char) :
    body (';' :: c :: rest) = ';' :: body (c :: rest) := by
  rw [body, if_neg (by simp [endMark, List.isPrefixOf, h.symm])]

theorem body_mark (rest : List Char) : body (endMark ++ rest) = [] :=
  if_pos (by simp [endMark, List.isPrefixOf])

/-- What is behind an end mark is no part of the body. -/
theorem body_append_mark (cs rest : List Char) :
    body (cs ++ (endMark ++ rest)) = body (cs ++ endMark) := by
  induction cs with
  | nil => exact body_mark rest
  | cons c cs ih =>
    have hlong : endMark.length ≤ (c :: (cs ++ endMark)).length := by
      rw [List.length_cons, List.length_append]
      omega
    have hprefix : endMark.isPrefixOf (c :: (cs ++ (endMark ++ rest))) =
        endMark.isPrefixOf (c :: (cs ++ endMark)) := by
      rw [Bool.eq_iff_iff, List.isPrefixOf_iff_prefix, List.isPrefixOf_iff_prefix,
        ← List.append_assoc, ← List.cons_append]
      exact ⟨fun h => List.prefix_of_prefix_length_le h (List.prefix_append ..) hlong,
        fun h => h.trans (List.prefix_append ..)⟩
    rw [List.cons_append, List.cons_append, body, body, hprefix, ih]

/-! ## Entries -/

/-- An entry begins with a digit. -/
theorem entryText_cons (e : ShardId × String) :
    ∃ c cs, c.isDigit = true ∧ entryText e = c :: cs := by
  obtain ⟨c, cs, hcs, hdigits⟩ := Text.toString_cons e.1
  exact ⟨c, cs ++ ':' :: e.2.toList, hdigits c List.mem_cons_self, by rw [entryText, hcs]; rfl⟩

theorem not_mem_toString {c : Char} (h : c.isDigit = false) (shard : ShardId) :
    c ∉ (toString shard).toList := by
  obtain ⟨c', cs, hcs, hdigits⟩ := Text.toString_cons shard
  rw [hcs]
  exact fun hmem => by simp [hdigits c hmem] at h

theorem separator_not_mem {e : ShardId × String} (h : Plain e.2) : ';' ∉ entryText e := by
  rw [entryText, List.mem_append, List.mem_cons, not_or, not_or]
  exact ⟨not_mem_toString rfl e.1, by decide, h.1⟩

theorem tight_entryText {e : ShardId × String} (h : Plain e.2) : Text.Tight (entryText e) := by
  constructor
  · obtain ⟨c, cs, hdigit, hcs⟩ := entryText_cons e
    rw [hcs]
    rintro c' ⟨⟩
    exact Text.not_isBlank_of_isDigit hdigit
  · rw [entryText, List.getLast?_append, List.getLast?_cons]
    rintro c' ⟨⟩
    cases hlast : e.2.toList.getLast? with
    | none => rfl
    | some c => exact h.2.2 c hlast

/-- An entry is read back. -/
theorem entry_entryText {e : ShardId × String} (h : Plain e.2) :
    entry? (entryText e) = .ok (some e) := by
  have hnonempty : ¬ (entryText e).isEmpty = true := by
    obtain ⟨c, cs, -, hcs⟩ := entryText_cons e
    simp [hcs]
  have hcut := Text.cut?_append (not_mem_toString (c := ':') rfl e.1) e.2.toList
  unfold entry?
  simp only
  rw [Text.trim_of_tight (tight_entryText h), if_neg hnonempty, entryText, hcut]
  simp only [Text.word32?_toString, String.ofList_toList]

theorem body_entries {entries : List (ShardId × String)} (h : ∀ e ∈ entries, Plain e.2)
    (rest : List Char) : body ((entries.flatMap fun e => ';' :: entryText e) ++ rest) =
      (entries.flatMap fun e => ';' :: entryText e) ++ body rest := by
  induction entries with
  | nil => rfl
  | cons e entries ih =>
    -- The separator of an entry begins no mark: a digit comes next.
    obtain ⟨c, cs, hdigit, hcs⟩ := entryText_cons e
    have hE : c ≠ 'E' := by
      rintro rfl
      exact absurd hdigit (by decide)
    have hnone := separator_not_mem (h e List.mem_cons_self)
    rw [List.flatMap_cons, List.append_assoc, List.cons_append, hcs, List.cons_append,
      body_separator hE, ← List.cons_append, ← hcs, body_append hnone,
      ih fun e' he' => h e' (List.mem_cons_of_mem e he')]
    simp only [List.cons_append, List.append_assoc]

theorem mapM_entryText {entries : List (ShardId × String)} (h : ∀ e ∈ entries, Plain e.2) :
    (entries.map entryText).mapM entry? = .ok (entries.map some) := by
  induction entries with
  | nil => rfl
  | cons e entries ih =>
    rw [List.map_cons, List.mapM_cons, entry_entryText (h e List.mem_cons_self),
      ih fun e' he' => h e' (List.mem_cons_of_mem e he')]
    rfl

/-! ## The peers announced -/

/-- An announcement of plain addresses is read back: of the entries those of other shards in the
    node's group are kept. -/
theorem peers_announce {own groupSize : ShardId} (hgroup : groupSize ≠ 0)
    {entries : List (ShardId × String)} (hentries : (entries.map Prod.fst).Nodup)
    (hplain : ∀ e ∈ entries, Plain e.2) (after : List Char) :
    ∃ kept : PeerMap, peers own groupSize (announce entries after) = .ok kept ∧
      kept.entries = entries.filter fun e => Kept own groupSize e.1 := by
  have hbody : body (announce entries after) =
      heading ++ entries.flatMap fun e => ';' :: entryText e := by
    have hnone : ';' ∉ heading := by decide
    rw [announce, List.append_assoc, body_append hnone, body_entries hplain, body_mark,
      List.append_nil]
  have hpieces : Text.pieces ';' (body (announce entries after)) =
      heading :: entries.map entryText := by
    rw [hbody]
    exact Text.pieces_flatMap (by decide) fun e he => separator_not_mem (hplain e he)
  have hsome : (entries.map some).reduceOption = entries := by
    rw [List.reduceOption, List.filterMap_map]
    exact List.filterMap_some
  refine ⟨_, ?_, Table.entries_ofList (hentries.sublist (List.filter_sublist.map Prod.fst))⟩
  rw [peers, if_neg hgroup, hpieces, List.drop_one, List.tail_cons, mapM_entryText hplain]
  refine congrArg (fun kept => Except.ok (Table.ofList kept)) ?_
  rw [hsome]
  rfl

/-- A map announced in any order gives its own entries. -/
theorem peers_announced {own groupSize : ShardId} (hgroup : groupSize ≠ 0) {announced : PeerMap}
    {entries : List (ShardId × String)} (hperm : entries.Perm announced.entries)
    (hplain : ∀ shard a, announced.get? shard = some a → Plain a) (after : List Char) :
    ∃ kept : PeerMap, peers own groupSize (announce entries after) = .ok kept ∧
      ∀ shard, kept.get? shard =
        if Kept own groupSize shard then announced.get? shard else none := by
  have hnodup : (entries.map Prod.fst).Nodup := (hperm.map Prod.fst).nodup_iff.2 announced.nodup
  have hmem : ∀ shard a, (shard, a) ∈ entries ↔ announced.get? shard = some a :=
    fun shard a => hperm.mem_iff.trans Table.mem_entries
  have hall : ∀ e ∈ entries, Plain e.2 := fun e he => hplain e.1 e.2 ((hmem e.1 e.2).1 he)
  obtain ⟨kept, hok, hentries⟩ := peers_announce hgroup hnodup hall after
  refine ⟨kept, hok, fun shard => Option.ext fun a => ?_⟩
  rw [← Table.mem_entries, hentries, List.mem_filter, hmem, decide_eq_true_iff]
  split
  · rename_i hkept
    exact and_iff_left hkept
  · rename_i hkept
    exact iff_of_false (fun h => hkept h.2) (Option.some_ne_none a).symm

/-! ## Streams -/

/-- The bytes of the end mark. -/
def mark : Bytes := Bytes.ofText ";END"

theorem isComplete_iff {bs : Bytes} : isComplete bs = true ↔ mark <:+: bs := by
  induction bs with
  | nil => exact ⟨nofun, fun h => absurd (List.infix_nil.1 h) (by decide)⟩
  | cons b bs ih =>
    rw [isComplete, Bool.or_eq_true, List.isPrefixOf_iff_prefix, ih, List.infix_cons_iff]
    rfl

/-- The bytes of a stream up to its first end mark. -/
structure Front (bytes front : Bytes) : Prop where
  starts : front <+: bytes
  marked : mark <:+ front
  first : ¬ mark <:+: front.dropLast

theorem Front.append {bytes front : Bytes} (h : Front bytes front) (more : Bytes) :
    Front (bytes ++ more) front :=
  ⟨h.starts.trans (List.prefix_append ..), h.marked, h.first⟩

theorem Front.infix {bytes front : Bytes} (h : Front bytes front) : mark <:+: bytes :=
  h.marked.isInfix.trans h.starts.isInfix

/-- Of two fronts neither ends before the other. -/
theorem Front.eq_of_prefix {bytes front front' : Bytes} (h : Front bytes front)
    (h' : Front bytes front') (hle : front <+: front') : front = front' := by
  obtain ⟨rest, rfl⟩ := hle
  rcases List.eq_nil_or_concat rest with rfl | ⟨more, b, rfl⟩
  · exact (List.append_nil front).symm
  · refine absurd ?_ h'.first
    rw [List.concat_eq_append, ← List.append_assoc, List.dropLast_concat]
    exact h.marked.isInfix.trans (List.prefix_append ..).isInfix

theorem Front.unique {bytes front front' : Bytes} (h : Front bytes front)
    (h' : Front bytes front') : front = front' :=
  (List.prefix_or_prefix_of_prefix h.starts h'.starts).elim (h.eq_of_prefix h')
    fun hge => (h'.eq_of_prefix h hge).symm

theorem exists_front {bytes : Bytes} (h : mark <:+: bytes) : ∃ front, Front bytes front := by
  induction bytes with
  | nil => exact absurd (List.infix_nil.1 h) (by decide)
  | cons b bs ih =>
    by_cases hhere : mark <+: b :: bs
    · exact ⟨mark, hhere, List.suffix_refl mark, by decide⟩
    · obtain ⟨front, hfront⟩ := ih ((List.infix_cons_iff.1 h).resolve_left hhere)
      have hstarts : b :: front <+: b :: bs := List.cons_prefix_cons.2 ⟨rfl, hfront.starts⟩
      refine ⟨b :: front, hstarts, hfront.marked.trans (List.suffix_cons ..), fun hfirst => ?_⟩
      have hnonempty : front ≠ [] := by
        rintro rfl
        exact absurd (List.suffix_nil.1 hfront.marked) (by decide)
      rw [List.dropLast_cons_of_ne_nil hnonempty] at hfirst
      rcases List.infix_cons_iff.1 hfirst with hnow | hlater
      · have hshort : b :: front.dropLast <+: b :: front :=
          List.cons_prefix_cons.2 ⟨rfl, List.dropLast_prefix front⟩
        exact hhere (hnow.trans (hshort.trans hstarts))
      · exact hfront.first hlater

/-- The mark stands in the text where it stands in the bytes. -/
theorem lossyChars_mark (before rest : Bytes) : Text.lossyChars (before ++ (mark ++ rest)) =
    Text.lossyChars before ++ (endMark ++ Text.lossyChars rest) := by
  have hmark : mark = [59, 69, 78, 68] := by decide
  rw [hmark]
  simp only [List.cons_append, List.nil_append]
  rw [Text.lossyChars_append_ascii before (by decide), Text.lossyChars_cons_ascii (by decide),
    Text.lossyChars_cons_ascii (by decide), Text.lossyChars_cons_ascii (by decide)]
  rfl

/-- Nothing counts but the bytes up to the first end mark. -/
theorem peers_front {bytes front : Bytes} (h : Front bytes front) (own groupSize : ShardId) :
    peers own groupSize (Text.lossyChars bytes) = peers own groupSize (Text.lossyChars front) := by
  obtain ⟨rest, rfl⟩ := h.starts
  obtain ⟨before, rfl⟩ := h.marked
  have hbody : body (Text.lossyChars (before ++ mark ++ rest)) =
      body (Text.lossyChars (before ++ mark)) := by
    have hnone := lossyChars_mark before []
    rw [List.append_nil] at hnone
    rw [List.append_assoc, lossyChars_mark, hnone, body_append_mark, body_append_mark]
  rw [peers, peers, hbody]

/-! ## Reading -/

/-- The bytes that come before the end of the stream. -/
def sent (reads : List Bytes) : Bytes := (reads.takeWhile (· ≠ [])).flatten

variable (address : String) (own groupSize : ShardId)

/-- What is made of a stream that ends before a mark. -/
def cutOff : Except Fault PeerMap :=
  .error (.invalid ("coordinator " ++ address ++ " closed before ;END"))

theorem sent_cons {read : Bytes} (h : read ≠ []) (reads : List Bytes) :
    sent (read :: reads) = read ++ sent reads := by
  simp [sent, h]

/-- Reading goes on to the next mark or to the end of the stream. -/
theorem ofReads_cons {received read : Bytes} (h : read ≠ []) (reads : List Bytes) :
    ofReads address own groupSize received (read :: reads) =
      if isComplete (received ++ read) then
        peers own groupSize (Text.lossyChars (received ++ read))
      else ofReads address own groupSize (received ++ read) reads := by
  cases read with
  | nil => exact absurd rfl h
  | cons b bs => rfl

/-- A stream with a mark is read up to it, however it is cut. -/
theorem ofReads_front {received front : Bytes} {reads : List Bytes}
    (hopen : ¬ mark <:+: received) (h : Front (received ++ sent reads) front) :
    ofReads address own groupSize received reads =
      peers own groupSize (Text.lossyChars front) := by
  induction reads generalizing received with
  | nil => exact absurd (List.append_nil received ▸ h.infix) hopen
  | cons read reads ih =>
    by_cases hread : read = []
    · cases hread
      exact absurd (List.append_nil received ▸ h.infix) hopen
    · rw [sent_cons hread, ← List.append_assoc] at h
      rw [ofReads_cons address own groupSize hread]
      split
      · -- What is received already has a front, and that of the stream is no other.
        rename_i hcomplete
        obtain ⟨front', hfront'⟩ := exists_front (isComplete_iff.1 hcomplete)
        rw [h.unique (hfront'.append _)]
        exact peers_front hfront' own groupSize
      · rename_i hcomplete
        exact ih (mt isComplete_iff.2 hcomplete) h

theorem ofReads_cutOff {received : Bytes} {reads : List Bytes}
    (h : ¬ mark <:+: received ++ sent reads) :
    ofReads address own groupSize received reads = cutOff address := by
  induction reads generalizing received with
  | nil => rfl
  | cons read reads ih =>
    by_cases hread : read = []
    · cases hread
      rfl
    · rw [sent_cons hread, ← List.append_assoc] at h
      have hcomplete : ¬ isComplete (received ++ read) = true :=
        fun hcomplete => h ((isComplete_iff.1 hcomplete).trans (List.prefix_append ..).isInfix)
      rw [ofReads_cons address own groupSize hread, if_neg hcomplete, ih h]

/-- What a coordinator announces in UTF-8 is learned, however it is cut into reads and whatever
    comes behind the mark. -/
theorem ofReads_announced (hgroup : groupSize ≠ 0) {announced : PeerMap}
    {entries : List (ShardId × String)} (hperm : entries.Perm announced.entries)
    (hplain : ∀ shard a, announced.get? shard = some a → Plain a) {reads : List Bytes}
    (hsent : Bytes.ofText (String.ofList (announce entries [])) <+: sent reads) :
    ∃ kept : PeerMap, ofReads address own groupSize [] reads = .ok kept ∧
      ∀ shard, kept.get? shard =
        if Kept own groupSize shard then announced.get? shard else none := by
  obtain ⟨rest, hrest⟩ := hsent
  have hbytes : sent reads = Bytes.ofText (String.ofList
      (heading ++ entries.flatMap fun e => ';' :: entryText e)) ++ (mark ++ rest) := by
    rw [← hrest, announce, List.append_nil, String.ofList_append, Bytes.ofText_append,
      List.append_assoc]
    rfl
  have htext : Text.lossyChars (sent reads) = announce entries (Text.lossyChars rest) := by
    rw [hbytes, lossyChars_mark, Text.lossyChars_ofText, String.toList_ofList, announce]
  have hmark : mark <:+: sent reads := ⟨_, rest, by rw [hbytes, List.append_assoc]⟩
  have hopen : ¬ mark <:+: ([] : Bytes) := by decide
  obtain ⟨front, hfront⟩ := exists_front hmark
  rw [ofReads_front address own groupSize hopen hfront, ← peers_front hfront, htext]
  exact peers_announced hgroup hperm hplain _

/-- A map of plain addresses, announced in any order and with any text behind the mark, is read
    back as the entries of other shards in the node's group, and so it is from any stream that
    begins with its announcement in UTF-8.  Of a stream only the bytes up to the first end mark
    count, however it is cut and whatever follows, and reading fails exactly if the stream ends
    before a mark or what comes up to it cannot be read. -/
theorem announced_read_back :
    (groupSize ≠ 0 → ∀ (announced : PeerMap) (entries : List (ShardId × String)),
      entries.Perm announced.entries → (∀ shard a, announced.get? shard = some a → Plain a) →
      (∀ after, ∃ kept : PeerMap, peers own groupSize (announce entries after) = .ok kept ∧
        ∀ shard, kept.get? shard =
          if Kept own groupSize shard then announced.get? shard else none) ∧
      ∀ reads, Bytes.ofText (String.ofList (announce entries [])) <+: sent reads →
        ∃ kept : PeerMap, ofReads address own groupSize [] reads = .ok kept ∧
          ∀ shard, kept.get? shard =
            if Kept own groupSize shard then announced.get? shard else none) ∧
    (∀ reads front, Front (sent reads) front →
      ofReads address own groupSize [] reads = peers own groupSize (Text.lossyChars front)) ∧
    (∀ reads, ¬ mark <:+: sent reads →
      ofReads address own groupSize [] reads = cutOff address) ∧
    ∀ reads, (∃ fault, ofReads address own groupSize [] reads = .error fault) ↔
      ¬ mark <:+: sent reads ∨ ∃ front fault, Front (sent reads) front ∧
        peers own groupSize (Text.lossyChars front) = .error fault := by
  have hopen : ¬ mark <:+: ([] : Bytes) := by decide
  have hfront : ∀ reads front, Front (sent reads) front →
      ofReads address own groupSize [] reads = peers own groupSize (Text.lossyChars front) :=
    fun reads front => ofReads_front address own groupSize hopen
  have hcutOff : ∀ reads, ¬ mark <:+: sent reads →
      ofReads address own groupSize [] reads = cutOff address :=
    fun reads hnone => ofReads_cutOff address own groupSize hnone
  refine ⟨fun hgroup announced entries hperm hplain => ⟨peers_announced hgroup hperm hplain,
    fun reads => ofReads_announced address own groupSize hgroup hperm hplain⟩,
    hfront, hcutOff, fun reads => ⟨?_, ?_⟩⟩
  · rintro ⟨fault, hfault⟩
    by_cases hmark : mark <:+: sent reads
    · obtain ⟨front, h⟩ := exists_front hmark
      exact .inr ⟨front, fault, h, (hfront reads front h).symm.trans hfault⟩
    · exact .inl hmark
  · rintro (hnone | ⟨front, fault, h, hfault⟩)
    · exact ⟨_, hcutOff reads hnone⟩
    · exact ⟨fault, (hfront reads front h).trans hfault⟩

/-- Of three shards one is kept, and the mark is read that two reads bring. -/
theorem announced_read_back_three :
    let announced : PeerMap :=
      ⟨[(0, "10.0.0.1"), (2, "[fd00::3]:9000"), (3, "10.0.0.4")], by decide⟩
    let reads := [Bytes.ofText "addresses;2:10.0.0.3;E", Bytes.ofText "ND;4:10.0.0.5;END"]
    let front := Bytes.ofText "addresses;2:10.0.0.3;END"
    (2 : ShardId) ≠ 0 ∧
      (∃ kept : PeerMap, peers 0 2 (announce announced.entries [';']) = .ok kept ∧
        kept.get? 2 = some "[fd00::3]:9000" ∧ kept.get? 3 = none) ∧
      Front (sent reads) front ∧
      ofReads "10.0.0.9:80" 0 2 [] reads = peers 0 2 (Text.lossyChars front) := by
  intro announced reads front
  obtain ⟨hparsed, hread, -, -⟩ := announced_read_back "10.0.0.9:80" 0 2
  have hall : ∀ e ∈ announced.entries, Plain e.2 := by
    simp [announced, Plain, Text.Tight, Text.isBlank]
  have hplain : ∀ shard a, announced.get? shard = some a → Plain a :=
    fun shard a hget => hall (shard, a) (Table.mem_entries.2 hget)
  have hfront : Front (sent reads) front := ⟨by decide, by decide, by decide⟩
  obtain ⟨hafter, -⟩ := hparsed (by decide) announced _ (List.Perm.refl _) hplain
  obtain ⟨kept, hok, hkept⟩ := hafter [';']
  exact ⟨by decide, ⟨kept, hok, (hkept 2).trans (by decide), (hkept 3).trans (by decide)⟩,
    hfront, hread reads front hfront⟩

end Depot.Announcement
