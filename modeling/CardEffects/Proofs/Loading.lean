/-
  CardEffects.Proofs.Loading

  Loading cards from a set of files.  What a directory gives is settled by its card files: those
  directly in it whose extension is `json`.  Taken in byte order of their names, the first that
  holds no list of cards decides the error; if there is none, their lists are joined.  Nothing else
  that lies in the directory or below it has a say, nor has the order in which it was put there.

    * `HoldsCards`, `Broken` — a file holds a list of cards, or there is one thing wrong with it.
    * `isCardFile_iff` — which names have the extension of card files.
    * `loadAll_eq_ok_iff`, `loadAll_eq_error_iff` — several files, one after the other.
    * `Listing`, `listing_cardFiles`, `Listing.unique` — the card files of a directory in order;
      there is one such order.
    * `cardFile_add_iff` — what may be added without changing them.
    * `corpusOf_loadAll`, `corpus_loading` — what is loaded from a path.
-/
import CardEffects.Load
import CardEffects.Proofs.FileSet
import CardEffects.Proofs.Text.ByteOrder

namespace CardEffects

/-! ## One file -/

/-- A file holds a list of cards: its bytes are those of a text that stands for it. -/
def HoldsCards (content : ByteArray) (cards : List Card) : Prop :=
  ∃ text json, text.toUTF8 = content ∧ Json.parse text = some json
    ∧ Json.list? Card.ofJson? json = some cards

/-- What is wrong with the file at a path: its bytes are those of no text, or the text stands for
no list of cards. -/
inductive Broken (path : String) (content : ByteArray) : LoadError → Prop where
  | unreadable (h : ∀ text : String, text.toUTF8 ≠ content) :
      Broken path content (.unreadable path)
  | malformed (text : String) (h : text.toUTF8 = content)
      (hcards : ∀ json, Json.parse text = some json → Json.list? Card.ofJson? json = none) :
      Broken path content (.malformed path)

theorem fromUTF8?_eq_some_iff {content : ByteArray} {text : String} :
    String.fromUTF8? content = some text ↔ text.toUTF8 = content := by
  unfold String.fromUTF8?
  constructor
  · intro h
    split at h
    next => cases h; rfl
    next => cases h
  · rintro rfl
    exact dif_pos text.isValidUTF8

/-- The text of a file that has one, decoded. -/
theorem loadCards_toUTF8 (path text : String) :
    loadCards path text.toUTF8
      = match (Json.parse text).bind (Json.list? Card.ofJson?) with
        | none => .error (.malformed path)
        | some cards => .ok cards := by
  have htext : String.fromUTF8? text.toUTF8 = some text := fromUTF8?_eq_some_iff.2 rfl
  simp only [loadCards, decodeFile, htext]
  cases (Json.parse text).bind (Json.list? Card.ofJson?) <;> rfl

theorem loadCards_of_no_text (path : String) {content : ByteArray}
    (h : ∀ text : String, text.toUTF8 ≠ content) :
    loadCards path content = .error (.unreadable path) := by
  have hnone : String.fromUTF8? content = none :=
    Option.eq_none_iff_forall_ne_some.2 fun text htext => h text (fromUTF8?_eq_some_iff.1 htext)
  rw [loadCards, decodeFile, hnone]

theorem HoldsCards.loadCards_eq {content : ByteArray} {cards : List Card}
    (h : HoldsCards content cards) (path : String) : loadCards path content = .ok cards := by
  obtain ⟨text, json, rfl, hparse, hcards⟩ := h
  rw [loadCards_toUTF8, hparse, Option.bind_some, hcards]

theorem Broken.loadCards_eq {path : String} {content : ByteArray} {e : LoadError}
    (h : Broken path content e) : loadCards path content = .error e := by
  cases h with
  | unreadable h => exact loadCards_of_no_text path h
  | malformed text h hcards =>
    have hnone : (Json.parse text).bind (Json.list? Card.ofJson?) = none :=
      Option.bind_eq_none_iff.2 hcards
    rw [← h, loadCards_toUTF8, hnone]

/-- A file holds a list of cards, or there is something wrong with it. -/
theorem holdsCards_or_broken (path : String) (content : ByteArray) :
    (∃ cards, HoldsCards content cards) ∨ ∃ e, Broken path content e := by
  by_cases htext : ∃ text : String, text.toUTF8 = content
  · obtain ⟨text, htext⟩ := htext
    cases hcards : (Json.parse text).bind (Json.list? Card.ofJson?) with
    | none => exact .inr ⟨_, .malformed text htext (Option.bind_eq_none_iff.1 hcards)⟩
    | some cards =>
      obtain ⟨json, hparse, hlist⟩ := Option.bind_eq_some_iff.1 hcards
      exact .inl ⟨cards, text, json, htext, hparse, hlist⟩
  · exact .inr ⟨_, .unreadable fun text h => htext ⟨text, h⟩⟩

theorem loadCards_eq_ok_iff {path : String} {content : ByteArray} {cards : List Card} :
    loadCards path content = .ok cards ↔ HoldsCards content cards := by
  refine ⟨fun h => ?_, fun h => h.loadCards_eq path⟩
  rcases holdsCards_or_broken path content with ⟨found, hfound⟩ | ⟨e, he⟩
  · cases h.symm.trans (hfound.loadCards_eq path)
    exact hfound
  · cases h.symm.trans he.loadCards_eq

theorem loadCards_eq_error_iff {path : String} {content : ByteArray} {e : LoadError} :
    loadCards path content = .error e ↔ Broken path content e := by
  refine ⟨fun h => ?_, Broken.loadCards_eq⟩
  rcases holdsCards_or_broken path content with ⟨found, hfound⟩ | ⟨e', he'⟩
  · cases h.symm.trans (hfound.loadCards_eq path)
  · cases h.symm.trans he'.loadCards_eq
    exact he'

/-! ## Several files -/

/-- There are cards if every file holds some, and then they are the lists joined. -/
theorem loadAll_eq_ok_iff {path : String} {files : List (String × ByteArray)}
    {cards : List Card} :
    loadAll path files = .ok cards
      ↔ ∃ lists, List.Forall₂ (fun f => HoldsCards f.2) files lists ∧ cards = lists.flatten := by
  -- along the files; the list of the first comes in front of all others
  induction files generalizing cards with
  | nil => simp [loadAll, eq_comm]
  | cons f files ih =>
    rw [loadAll]
    constructor
    · intro h
      split at h
      next => cases h
      next own hown =>
        split at h
        next => cases h
        next more hmore =>
          cases h
          obtain ⟨lists, hlists, rfl⟩ := ih.1 hmore
          exact ⟨own :: lists, .cons (loadCards_eq_ok_iff.1 hown) hlists, rfl⟩
    · rintro ⟨_, hall, rfl⟩
      cases hall with
      | @cons _ own _ lists hown hlists =>
        simp only [hown.loadCards_eq, ih.2 ⟨lists, hlists, rfl⟩, List.flatten_cons]

theorem exists_loadAll_eq_ok_iff {path : String} {files : List (String × ByteArray)} :
    (∃ cards, loadAll path files = .ok cards)
      ↔ ∀ f ∈ files, ∃ cards, HoldsCards f.2 cards := by
  simp only [loadAll_eq_ok_iff]
  induction files with
  | nil => simp
  | cons f files ih =>
    rw [List.forall_mem_cons, ← ih]
    constructor
    · rintro ⟨_, _, hall, rfl⟩
      cases hall with
      | cons hown hlists => exact ⟨⟨_, hown⟩, _, _, hlists, rfl⟩
    · rintro ⟨⟨own, hown⟩, _, lists, hlists, rfl⟩
      exact ⟨_, own :: lists, .cons hown hlists, rfl⟩

/-- The first file that holds no cards decides the error. -/
theorem loadAll_eq_error_iff {path : String} {files : List (String × ByteArray)}
    {e : LoadError} :
    loadAll path files = .error e
      ↔ ∃ before f after, files = before ++ f :: after
        ∧ (∀ g ∈ before, ∃ cards, HoldsCards g.2 cards) ∧ Broken (childPath path f.1) f.2 e := by
  induction files with
  | nil => simp [loadAll]
  | cons f files ih =>
    rw [loadAll]
    constructor
    · intro h
      split at h
      next e' he' =>
        -- the file itself
        cases h
        exact ⟨[], f, files, rfl, by simp, loadCards_eq_error_iff.1 he'⟩
      next own hown =>
        split at h
        next e' he' =>
          -- one after it
          cases h
          obtain ⟨before, g, after, rfl, hbefore, hbroken⟩ := ih.1 he'
          have hall : ∀ g ∈ f :: before, ∃ cards, HoldsCards g.2 cards :=
            List.forall_mem_cons.2 ⟨⟨own, loadCards_eq_ok_iff.1 hown⟩, hbefore⟩
          exact ⟨f :: before, g, after, rfl, hall, hbroken⟩
        next => cases h
    · rintro ⟨before, g, after, hsplit, hbefore, hbroken⟩
      cases before with
      | nil =>
        cases hsplit
        simp only [hbroken.loadCards_eq]
      | cons first before =>
        cases hsplit
        obtain ⟨⟨own, hown⟩, hbefore⟩ := List.forall_mem_cons.1 hbefore
        simp only [hown.loadCards_eq, ih.2 ⟨before, g, after, rfl, hbefore, hbroken⟩]

/-! ## The card files of a directory -/

/-- A name has an extension: it is a stem, which is not empty, a full stop, and the extension, in
which there is no full stop. -/
def HasExtension (name ext : String) : Prop :=
  ∃ stem, stem ≠ [] ∧ name.toList = stem ++ '.' :: ext.toList ∧ '.' ∉ ext.toList

theorem isCardFile_iff (name : String) : isCardFile name = true ↔ HasExtension name "json" := by
  have hext : cardExtension = '.' :: "json".toList := by decide
  rw [isCardFile, Bool.and_eq_true, List.isSuffixOf_iff_suffix, decide_eq_true_eq, hext,
    ← String.length_toList]
  constructor
  · rintro ⟨⟨stem, hstem⟩, hlong⟩
    refine ⟨stem, ?_, hstem.symm, by decide⟩
    rintro rfl
    rw [← hstem] at hlong
    exact absurd hlong (by simp)
  · rintro ⟨stem, hstem, hname, -⟩
    refine ⟨⟨stem, hname.symm⟩, ?_⟩
    rw [hname, List.length_append]
    have := List.length_pos_of_ne_nil hstem
    omega

/-- Files in byte order of their names, no name twice. -/
def ByName (files : List (String × ByteArray)) : Prop :=
  files.Pairwise fun f g => Text.bytes f.1 < Text.bytes g.1

theorem ByName.nodup {files : List (String × ByteArray)} (h : ByName files) : files.Nodup :=
  h.imp fun {f g} hlt (heq : f = g) => List.lt_irrefl (Text.bytes g.1) (heq ▸ hlt)

/-- There is one such order of given files. -/
theorem ByName.unique {files files' : List (String × ByteArray)} (h : ByName files)
    (h' : ByName files') (hmem : ∀ f, f ∈ files ↔ f ∈ files') : files = files' := by
  have hperm : files.Perm files' := (List.perm_ext_iff_of_nodup h.nodup h'.nodup).2 hmem
  refine hperm.eq_of_pairwise (fun f g _ _ hfg hgf => ?_) h h'
  exact absurd hgf (List.lt_asymm hfg)

/-- What comes before a file in such an order has a name that comes before. -/
theorem ByName.mem_before_iff {before after : List (String × ByteArray)}
    {f g : String × ByteArray} (h : ByName (before ++ f :: after)) :
    g ∈ before ↔ g ∈ before ++ f :: after ∧ Text.bytes g.1 < Text.bytes f.1 := by
  obtain ⟨-, hfrom, hbefore⟩ := List.pairwise_append.1 h
  constructor
  · intro hg
    exact ⟨List.mem_append_left _ hg, hbefore g hg f List.mem_cons_self⟩
  · rintro ⟨hg, hlt⟩
    rcases List.mem_append.1 hg with hg | hg
    · exact hg
    · rcases List.mem_cons.1 hg with rfl | hg
      · exact absurd hlt (List.lt_irrefl _)
      · exact absurd hlt (List.lt_asymm (List.rel_of_pairwise_cons hfrom hg))

theorem mem_cardFiles {files : List (String × ByteArray)} {f : String × ByteArray} :
    f ∈ cardFiles files ↔ f ∈ files ∧ HasExtension f.1 "json" := by
  rw [cardFiles, List.mem_mergeSort, List.mem_filter, isCardFile_iff]

theorem byName_cardFiles {files : List (String × ByteArray)}
    (h : (files.map Prod.fst).Nodup) : ByName (cardFiles files) := by
  have hsorted : (cardFiles files).Pairwise fun f g => f.1 ≤ g.1 := by
    have htrans (f g k : String × ByteArray) (hfg : decide (f.1 ≤ g.1) = true)
        (hgk : decide (g.1 ≤ k.1) = true) : decide (f.1 ≤ k.1) = true :=
      decide_eq_true ((of_decide_eq_true hfg).trans (of_decide_eq_true hgk))
    have htotal (f g : String × ByteArray) :
        (decide (f.1 ≤ g.1) || decide (g.1 ≤ f.1)) = true := by
      simpa using le_total f.1 g.1
    exact (List.pairwise_mergeSort htrans htotal _).imp of_decide_eq_true
  -- no two names are equal, so the order is strict
  have hnames : (cardFiles files).Pairwise fun f g => f.1 ≠ g.1 := by
    have hkept : (files.filter fun f => isCardFile f.1).Pairwise fun f g => f.1 ≠ g.1 :=
      (List.pairwise_map.1 h).filter _
    exact hkept.perm (List.mergeSort_perm _ _).symm Ne.symm
  refine (hsorted.and hnames).imp fun ⟨hle, hne⟩ => ?_
  exact (Text.bytes_lt_bytes_iff _ _).2 (lt_of_le_of_ne hle hne)

/-! ## What is found under a path -/

namespace FileSet

/-- A card file that lies directly in a directory. -/
def CardFile (s : FileSet) (place : Location) (name : String) (content : ByteArray) : Prop :=
  s.content? (place ++ [name]) = some content ∧ HasExtension name "json"

/-- The card files of a directory in byte order of their names. -/
structure Listing (s : FileSet) (place : Location) (files : List (String × ByteArray)) : Prop where
  byName : ByName files
  mem_iff (name : String) (content : ByteArray) :
    (name, content) ∈ files ↔ s.CardFile place name content

/-- What loading the directory at a place comes to, for the path that leads there. -/
structure CorpusOf (s : FileSet) (path : String) (place : Location)
    (answer : Except LoadError (List Card)) : Prop where
  /-- There are cards exactly if each card file holds some. -/
  ok_iff : (∃ cards, answer = .ok cards)
    ↔ ∀ name content, s.CardFile place name content → ∃ cards, HoldsCards content cards
  /-- They are the lists of the card files, joined in byte order of the names. -/
  eq_ok_iff (cards : List Card) : answer = .ok cards
    ↔ ∃ files lists, s.Listing place files
      ∧ List.Forall₂ (fun f => HoldsCards f.2) files lists ∧ cards = lists.flatten
  /-- An error is that of the first card file that holds none. -/
  eq_error_iff (e : LoadError) : answer = .error e
    ↔ ∃ name content, s.CardFile place name content ∧ Broken (childPath path name) content e
      ∧ ∀ name' content', s.CardFile place name' content' →
        Text.bytes name' < Text.bytes name → ∃ cards, HoldsCards content' cards

variable {s : FileSet} {path : String} {place : Location}

theorem listing_cardFiles (h : s.Unambiguous) (place : Location) :
    s.Listing place (cardFiles (s.filesIn place)) where
  byName := byName_cardFiles (nodup_filesIn h place)
  mem_iff name content := by rw [mem_cardFiles, mem_filesIn h, CardFile]

/-- Directories with the same card files have one listing. -/
theorem Listing.unique {s' : FileSet} {place' : Location}
    {files files' : List (String × ByteArray)} (h : s.Listing place files)
    (h' : s'.Listing place' files')
    (hsame : ∀ name content, s.CardFile place name content ↔ s'.CardFile place' name content) :
    files = files' :=
  h.byName.unique h'.byName fun ⟨name, content⟩ => by
    rw [h.mem_iff, h'.mem_iff, hsame]

/-- A directory added, or a file under any other name than that of a card file, leaves the card
files of a directory as they are. -/
theorem cardFile_add_iff (h : s.Unambiguous) {added : String}
    (helsewhere : ¬ EndsInSlash added →
      ∀ name, HasExtension name "json" → place ++ [name] ≠ target added)
    (content : ByteArray) (name : String) (c : ByteArray) :
    (s.add added content).CardFile place name c ↔ s.CardFile place name c := by
  refine and_congr_left fun hext => ?_
  by_cases hslash : EndsInSlash added
  · rw [content?_add_directory s hslash]
  · rw [content?_add h hslash, if_neg (helsewhere hslash name hext)]

/-- The answer for a listing is that for its directory. -/
theorem corpusOf_loadAll {files : List (String × ByteArray)} (h : s.Listing place files)
    (path : String) : s.CorpusOf path place (loadAll path files) where
  ok_iff := by
    rw [exists_loadAll_eq_ok_iff, Prod.forall]
    simp only [h.mem_iff]
  eq_ok_iff cards := by
    rw [loadAll_eq_ok_iff]
    constructor
    · rintro ⟨lists, hlists, rfl⟩
      exact ⟨files, lists, h, hlists, rfl⟩
    · -- whichever listing is meant, it is this one
      rintro ⟨files', lists, h', hlists, rfl⟩
      rw [h'.unique h fun _ _ => Iff.rfl] at hlists
      exact ⟨lists, hlists, rfl⟩
  eq_error_iff e := by
    rw [loadAll_eq_error_iff]
    constructor
    · -- card files with smaller names stand before it, and those can be read
      rintro ⟨before, ⟨name, content⟩, after, rfl, hbefore, hbroken⟩
      have hfile : s.CardFile place name content :=
        (h.mem_iff name content).1 (List.mem_append_right _ List.mem_cons_self)
      refine ⟨name, content, hfile, hbroken, fun name' content' hfile' hlt => ?_⟩
      exact hbefore (name', content')
        (h.byName.mem_before_iff.2 ⟨(h.mem_iff name' content').2 hfile', hlt⟩)
    · rintro ⟨name, content, hfile, hbroken, hfirst⟩
      obtain ⟨before, after, rfl⟩ := List.append_of_mem ((h.mem_iff name content).2 hfile)
      refine ⟨before, _, after, rfl, fun ⟨name', content'⟩ hmem => ?_, hbroken⟩
      obtain ⟨hmem, hlt⟩ := h.byName.mem_before_iff.1 hmem
      exact hfirst name' content' ((h.mem_iff name' content').1 hmem) hlt

/-- What is loaded from a path.  Nothing is there: an error says so.  A file is there: its list of
cards, whatever its name, or what is wrong with it.  A directory is there: what its card files come
to, and any two directories with the same card files give the same. -/
theorem corpus_loading (h : s.Unambiguous) (path : String) :
    ((∀ content, ¬ s.LeadsToFile path content) → (∀ place, ¬ s.LeadsToDirectory path place) →
      loadCorpus path (s.find? path) = .error (.notFound path))
    ∧ (∀ content, s.LeadsToFile path content →
      (∀ cards, loadCorpus path (s.find? path) = .ok cards ↔ HoldsCards content cards)
      ∧ ∀ e, loadCorpus path (s.find? path) = .error e ↔ Broken path content e)
    ∧ ∀ place, s.LeadsToDirectory path place →
      s.CorpusOf path place (loadCorpus path (s.find? path))
      ∧ ∀ (s' : FileSet) (place' : Location), s'.Unambiguous → s'.LeadsToDirectory path place' →
        (∀ name content, s.CardFile place name content ↔ s'.CardFile place' name content) →
        loadCorpus path (s'.find? path) = loadCorpus path (s.find? path) := by
  refine ⟨fun hfile hdirectory => ?_, fun content hfile => ?_, fun place hplace => ⟨?_, ?_⟩⟩
  · rw [find?_eq_none hfile hdirectory, loadCorpus]
  · rw [find?_of_file hfile]
    exact ⟨fun cards => loadCards_eq_ok_iff, fun e => loadCards_eq_error_iff⟩
  · rw [find?_of_directory hplace]
    exact corpusOf_loadAll (listing_cardFiles h place) path
  · intro s' place' h' hplace' hsame
    have hlisting : cardFiles (s'.filesIn place') = cardFiles (s.filesIn place) :=
      ((listing_cardFiles h place).unique (listing_cardFiles h' place') hsame).symm
    rw [find?_of_directory hplace, find?_of_directory hplace', loadCorpus, loadCorpus, hlisting]

end FileSet

/-- A directory with a file of cards, two broken ones, and four that are not read. -/
def mixedFiles : FileSet :=
  (((((((FileSet.empty.add "cards/c.json" ⟨#[0xff]⟩).add "cards/b.json" "[]".toUTF8).add
    "cards/a.json" "[".toUTF8).add "cards/.json" "".toUTF8).add "cards/json" "".toUTF8).add
    "cards/0.txt" "[]".toUTF8).add "cards/0.json/a.json" "".toUTF8)

theorem unambiguous_mixedFiles : mixedFiles.Unambiguous :=
  (((((((FileSet.unambiguous_empty.add _ _).add _ _).add _ _).add _ _).add _ _).add _ _).add _ _)

/-- The error is that of `a.json`, the first broken file by name, though `c.json` was added first;
a further file two levels down is of no account. -/
theorem mixedFiles_corpus :
    mixedFiles.Unambiguous
    ∧ loadCorpus "decks" (mixedFiles.find? "decks") = .error (.notFound "decks")
    ∧ loadCorpus "cards/0.txt" (mixedFiles.find? "cards/0.txt") = .ok []
    ∧ loadCorpus "cards" (mixedFiles.find? "cards") = .error (.malformed "cards/a.json")
    ∧ loadCorpus "cards" ((mixedFiles.add "cards/0.json/b.json" "".toUTF8).find? "cards")
      = loadCorpus "cards" (mixedFiles.find? "cards") := by
  have h := unambiguous_mixedFiles
  have hdecks {place : Location} (hleads : mixedFiles.Leads "decks" place) :
      place = ["", "decks"] :=
    Option.some.inj (hleads.symm.trans (by rfl))
  have hcards : mixedFiles.LeadsToDirectory "cards" ["", "cards"] := ⟨by rfl, rfl, rfl⟩
  have hfirst : ∀ f ∈ mixedFiles.filesIn ["", "cards"], isCardFile f.1 = true →
      Text.bytes "a.json" ≤ Text.bytes f.1 := by decide
  refine ⟨h, (FileSet.corpus_loading h "decks").1 ?_ ?_,
    (((FileSet.corpus_loading h "cards/0.txt").2.1 "[]".toUTF8 ?_).1 []).2 ?_,
    (((FileSet.corpus_loading h "cards").2.2 _ hcards).1.eq_error_iff _).2 ?_,
    ((FileSet.corpus_loading h "cards").2.2 _ hcards).2 _ ["", "cards"] (h.add _ _) ?_ ?_⟩
  · rintro content ⟨place, hleads, hcontent⟩
    cases hdecks hleads
    cases (show none = some content from hcontent)
  · rintro place ⟨hleads, -, hdirectory⟩
    cases hdecks hleads
    exact absurd hdirectory (by decide)
  · exact ⟨["", "cards", "0.txt"], rfl, rfl⟩
  · exact ⟨"[]", .list [], rfl, rfl, rfl⟩
  · have hparse : Json.parse "[" = none := by rfl
    have hbroken : Broken "cards/a.json" "[".toUTF8 (.malformed "cards/a.json") :=
      .malformed "[" rfl fun _ hjson => by cases hparse.symm.trans hjson
    have hext : HasExtension "a.json" "json" := (isCardFile_iff "a.json").1 (by decide)
    refine ⟨"a.json", "[".toUTF8, ⟨rfl, hext⟩, hbroken, fun name content hfile hlt => ?_⟩
    have hle : Text.bytes "a.json" ≤ Text.bytes name :=
      hfirst (name, content) ((FileSet.mem_filesIn h).2 hfile.1) ((isCardFile_iff name).2 hfile.2)
    exact absurd hlt hle
  · exact ⟨by rfl, rfl, rfl⟩
  · have htarget : FileSet.target "cards/0.json/b.json" = ["", "cards", "0.json", "b.json"] := by
      rfl
    intro name content
    refine (FileSet.cardFile_add_iff h (fun _ name _ heq => ?_) _ name content).symm
    rw [htarget] at heq
    cases heq

end CardEffects
