import Mathlib.Data.List.Basic
import TypingsAudit.Path

set_option autoImplicit false

/-! # Normal forms of paths

`Path.IsNormal` says without a walk what the normal forms are: the empty text of the root, and the
texts without a backslash whose segments all name something. `isNormal_iff_normalize?` is the link
to `Path.normalize?`: the normal forms are its results, and it leaves each of them as it is.

A path stays normal when its ending is taken off and another one put on
(`IsNormal.replace_tail`). Probing for files and looking for the declaration of a script do nothing
else to a path, so everything that they come up with is normal.

The directories above a path are found from parent to parent. `mem_ancestors_iff` says what they are
by the slashes of the path alone. -/

namespace TypingsAudit

namespace Path

/-- A segment that enters something, where the others stay in place or go up. -/
def IsName (segment : List Char) : Prop :=
  segment ≠ [] ∧ segment ≠ ['.'] ∧ segment ≠ ['.', '.']

/-- A path that is written as `Path.normalize?` writes it. -/
def IsNormal (path : String) : Prop :=
  path = "" ∨ '\\' ∉ path.toList ∧ ∀ s ∈ segments path.toList, IsName s

/-- A text that no separator cuts. -/
def NoSeparator (text : List Char) : Prop :=
  ∀ c ∈ text, isSeparator c = false

/-- A text that can stand at the end of a name: it does not cut the name, and has more than dots. -/
def IsEnding (ending : List Char) : Prop :=
  NoSeparator ending ∧ ∃ c ∈ ending, c ≠ '.'

instance (segment : List Char) : Decidable (IsName segment) :=
  inferInstanceAs (Decidable (_ ∧ _ ∧ _))

instance (path : String) : Decidable (IsNormal path) :=
  inferInstanceAs (Decidable (_ ∨ _ ∧ _))

-- Not by search, which may decide a statement about all characters of a text by trying each
-- character there is.
instance (text : List Char) : Decidable (NoSeparator text) :=
  List.decidableBAll (isSeparator · = false) text

instance (ending : List Char) : Decidable (IsEnding ending) :=
  have : Decidable (∃ c ∈ ending, c ≠ '.') := List.decidableBEx (· ≠ '.') ending
  inferInstanceAs (Decidable (_ ∧ _))

theorem noSeparator_nil : NoSeparator [] :=
  List.forall_mem_nil _

/-! ## Segments -/

theorem segments_ne_nil (path : List Char) : segments path ≠ [] :=
  List.splitOnP_ne_nil isSeparator path

/-- A text without separators is one segment. -/
theorem segments_of_noSeparator {s : List Char} (h : NoSeparator s) : segments s = [s] :=
  List.splitOnP_eq_singleton h

/-- A leading text without separators is the first segment. -/
theorem segments_append_slash {s : List Char} (h : NoSeparator s) (rest : List Char) :
    segments (s ++ '/' :: rest) = s :: segments rest :=
  List.splitOnP_append_cons_of_forall_mem h '/' (by decide) rest

/-- A slash cuts a path into the segments in front of it and those behind it. -/
theorem segments_append_slash_append (front rest : List Char) :
    segments (front ++ '/' :: rest) = segments front ++ segments rest :=
  List.splitOnP_append_cons front rest (by decide)

/-- Segments hold no separators. -/
theorem noSeparator_of_mem_segments {path s : List Char} (h : s ∈ segments path) :
    NoSeparator s := by
  induction path generalizing s with
  | nil =>
      obtain rfl : s = [] := by simpa [segments] using h
      exact noSeparator_nil
  | cons d rest ih =>
      simp only [segments, List.splitOnP_cons_eq_if_modifyHead] at h
      split at h
      · rcases List.mem_cons.1 h with rfl | h
        · exact noSeparator_nil
        · exact ih h
      · next hd =>
          obtain ⟨first, others, hsplit⟩ := List.exists_cons_of_ne_nil (segments_ne_nil rest)
          rw [show rest.splitOnP isSeparator = first :: others from hsplit] at h
          rcases List.mem_cons.1 h with rfl | h
          · intro c hc
            rcases List.mem_cons.1 hc with rfl | hc
            · simpa using hd
            · exact ih (by rw [hsplit]; exact List.mem_cons_self ..) c hc
          · exact ih (by rw [hsplit]; exact List.mem_cons_of_mem _ h)

/-- Segments joined by slashes are cut apart again. -/
theorem segments_intercalate {parts : List (List Char)} (hne : parts ≠ [])
    (h : ∀ s ∈ parts, NoSeparator s) :
    segments (List.intercalate ['/'] parts) = parts := by
  induction parts with
  | nil => exact absurd rfl hne
  | cons s rest ih =>
      have hs : NoSeparator s := h s (List.mem_cons_self ..)
      cases rest with
      | nil => simpa using segments_of_noSeparator hs
      | cons t rest =>
          rw [List.intercalate_cons_cons, List.append_assoc, List.singleton_append,
            segments_append_slash hs, ih (by simp) (fun u hu => h u (List.mem_cons_of_mem _ hu))]

/-- Where the only separators of a path are slashes, the segments stand between slashes. -/
theorem segments_eq_splitOn {path : List Char} (h : '\\' ∉ path) :
    segments path = path.splitOn '/' := by
  induction path with
  | nil => rfl
  | cons c rest ih =>
      rw [List.mem_cons, not_or] at h
      rw [segments, List.splitOnP_cons_eq_if_modifyHead, List.splitOn_cons_eq_if_modifyHead,
        ← ih h.2]
      simp [isSeparator, Ne.symm h.1, segments]

/-- Where the only separators of a path are slashes, its segments joined by slashes are the path. -/
theorem intercalate_segments {path : List Char} (h : '\\' ∉ path) :
    List.intercalate ['/'] (segments path) = path := by
  rw [segments_eq_splitOn h, List.intercalate_splitOn]

/-- A text put at the end of a path, free of separators, goes to its last segment. -/
theorem exists_segments_append (path : List Char) :
    ∃ front last, ∀ tail, NoSeparator tail →
      segments (path ++ tail) = front ++ [last ++ tail] := by
  induction path with
  | nil => exact ⟨[], [], fun tail h => segments_of_noSeparator h⟩
  | cons c rest ih =>
      obtain ⟨front, last, ih⟩ := ih
      by_cases hc : isSeparator c = true
      · refine ⟨[] :: front, last, fun tail h => ?_⟩
        rw [List.cons_append, segments, List.splitOnP_cons_eq_if_modifyHead, if_pos hc]
        exact congrArg _ (ih tail h)
      · have hcons : ∀ tail, segments (c :: rest ++ tail)
            = (segments (rest ++ tail)).modifyHead (c :: ·) := fun tail => by
          rw [List.cons_append, segments, List.splitOnP_cons_eq_if_modifyHead, if_neg hc]
          rfl
        cases front with
        | nil => exact ⟨[], c :: last, fun tail h => by rw [hcons, ih tail h]; rfl⟩
        | cons s front => exact ⟨(c :: s) :: front, last, fun tail h => by
            rw [hcons, ih tail h]; rfl⟩

theorem mem_intercalate_slash {parts : List (List Char)} {c : Char}
    (h : c ∈ List.intercalate ['/'] parts) : c = '/' ∨ ∃ s ∈ parts, c ∈ s := by
  induction parts with
  | nil => simp at h
  | cons s rest ih =>
      cases rest with
      | nil => exact Or.inr ⟨s, List.mem_cons_self .., by simpa using h⟩
      | cons t rest =>
          rw [List.intercalate_cons_cons, List.append_assoc, List.mem_append] at h
          rcases h with h | h
          · exact Or.inr ⟨s, List.mem_cons_self .., h⟩
          · rcases List.mem_cons.1 h with h | h
            · exact Or.inl h
            · exact (ih h).imp id (fun ⟨u, hu, hc⟩ => ⟨u, List.mem_cons_of_mem _ hu, hc⟩)

/-! ## Walks -/

/-- The three kinds of segments. -/
theorem segment_cases (s : List Char) : (s = [] ∨ s = ['.']) ∨ s = ['.', '.'] ∨ IsName s := by
  by_cases hstay : s = [] ∨ s = ['.']
  · exact Or.inl hstay
  · rw [not_or] at hstay
    by_cases hup : s = ['.', '.']
    · exact Or.inr (Or.inl hup)
    · exact Or.inr (Or.inr ⟨hstay.1, hstay.2, hup⟩)

theorem walk_stay {s : List Char} (h : s = [] ∨ s = ['.']) (here rest : List (List Char)) :
    walk here (s :: rest) = walk here rest := by
  rw [walk.eq_def]
  exact if_pos h

theorem walk_up (last : List Char) (up rest : List (List Char)) :
    walk (last :: up) (['.', '.'] :: rest) = walk up rest := by
  simp [walk]

theorem walk_escape (rest : List (List Char)) : walk [] (['.', '.'] :: rest) = none := by
  simp [walk]

theorem walk_name {s : List Char} (h : IsName s) (here rest : List (List Char)) :
    walk here (s :: rest) = walk (s :: here) rest := by
  rw [walk.eq_def]
  simp only [if_neg (not_or.2 ⟨h.1, h.2.1⟩), if_neg h.2.2]

/-- Names are entered one after another. -/
theorem walk_names {parts : List (List Char)} (h : ∀ s ∈ parts, IsName s)
    (here : List (List Char)) : walk here parts = some (parts.reverse ++ here) := by
  induction parts generalizing here with
  | nil => simp [walk]
  | cons s rest ih =>
      rw [walk_name (h s (List.mem_cons_self ..)), ih (fun t ht => h t (List.mem_cons_of_mem _ ht))]
      simp

/-- A walk is only ever inside directories that it was in at the start or has entered, and what it
    enters is a name. -/
theorem mem_of_walk {parts here out : List (List Char)} (h : walk here parts = some out) :
    ∀ s ∈ out, s ∈ here ∨ s ∈ parts ∧ IsName s := by
  induction parts generalizing here with
  | nil =>
      obtain rfl : here = out := by simpa [walk] using h
      exact fun s hs => Or.inl hs
  | cons t rest ih =>
      intro s hs
      rcases segment_cases t with hstay | rfl | hname
      · rw [walk_stay hstay] at h
        exact (ih h s hs).imp id (fun hr => ⟨List.mem_cons_of_mem _ hr.1, hr.2⟩)
      · cases here with
        | nil => exact absurd h (by simp [walk_escape])
        | cons last up =>
            rw [walk_up] at h
            exact (ih h s hs).imp (List.mem_cons_of_mem _ ·)
              (fun hr => ⟨List.mem_cons_of_mem _ hr.1, hr.2⟩)
      · rw [walk_name hname] at h
        rcases ih h s hs with hs | hs
        · rcases List.mem_cons.1 hs with rfl | hs
          · exact Or.inr ⟨List.mem_cons_self .., hname⟩
          · exact Or.inl hs
        · exact Or.inr ⟨List.mem_cons_of_mem _ hs.1, hs.2⟩

/-! ## Normal forms -/

/-- Names without separators, joined by slashes, are a normal path. -/
theorem isNormal_render {parts : List (List Char)} (hname : ∀ s ∈ parts, IsName s)
    (hsep : ∀ s ∈ parts, NoSeparator s) : IsNormal (render parts) := by
  by_cases hne : parts = []
  · subst hne
    exact Or.inl rfl
  · refine Or.inr ⟨?_, ?_⟩
    · rw [render, String.toList_ofList]
      intro hmem
      rcases mem_intercalate_slash hmem with hc | ⟨s, hs, hc⟩
      · exact absurd hc (by decide)
      · exact absurd (hsep s hs _ hc) (by decide)
    · rw [render, String.toList_ofList, segments_intercalate hne hsep]
      exact hname

/-- What `Path.normalize?` gives is normal. -/
theorem isNormal_of_normalize? {path normal : String} (h : normalize? path = some normal) :
    IsNormal normal := by
  obtain ⟨here, hwalk, rfl⟩ := Option.map_eq_some_iff.1 h
  have hmem : ∀ s ∈ here, s ∈ segments path.toList ∧ IsName s := fun s hs =>
    (mem_of_walk hwalk s hs).resolve_left (by simp)
  exact isNormal_render (fun s hs => (hmem s (List.mem_reverse.1 hs)).2)
    (fun s hs => noSeparator_of_mem_segments (hmem s (List.mem_reverse.1 hs)).1)

theorem normalize?_of_isNormal {path : String} (h : IsNormal path) :
    normalize? path = some path := by
  rcases h with rfl | ⟨hslash, hname⟩
  · rfl
  · rw [normalize?, walk_names hname, Option.map_some, List.append_nil, List.reverse_reverse,
      render, intercalate_segments hslash, String.ofList_toList]

/-- **The normal paths are the fixed points of `Path.normalize?`.** -/
theorem isNormal_iff_normalize? {path : String} : IsNormal path ↔ normalize? path = some path :=
  ⟨normalize?_of_isNormal, isNormal_of_normalize?⟩

/-- A name in a directory below the root is a normal path. -/
theorem IsNormal.child {dir name : String} (h : IsNormal dir) (hdir : dir ≠ "")
    (hname : IsName name.toList) (hsep : NoSeparator name.toList) :
    IsNormal (dir ++ "/" ++ name) := by
  obtain ⟨hslash, hnames⟩ := h.resolve_left hdir
  have htext : (dir ++ "/" ++ name).toList = dir.toList ++ '/' :: name.toList := by simp
  have hsegs : segments (dir ++ "/" ++ name).toList = segments dir.toList ++ [name.toList] := by
    rw [htext, segments_append_slash_append, segments_of_noSeparator hsep]
  refine Or.inr ⟨?_, ?_⟩
  · rw [htext, List.mem_append, List.mem_cons, not_or, not_or]
    exact ⟨hslash, by decide, fun hmem => absurd (hsep _ hmem) (by decide)⟩
  · rw [hsegs, List.forall_mem_append, List.forall_mem_singleton]
    exact ⟨hnames, hname⟩

/-- Such a path is also what joining gives. -/
theorem join?_of_isNormal {dir name : String} (h : IsNormal dir) (hdir : dir ≠ "")
    (hname : IsName name.toList) (hsep : NoSeparator name.toList) :
    join? dir name = some (dir ++ "/" ++ name) := by
  rw [join?, if_neg hdir]
  exact normalize?_of_isNormal (h.child hdir hname hsep)

theorem isNormal_of_join? {dir request path : String} (h : join? dir request = some path) :
    IsNormal path := by
  rw [join?] at h
  split at h
  · exact isNormal_of_normalize? h
  · exact isNormal_of_normalize? h

/-- A path that a field names is normal, if it names one. -/
theorem isNormal_of_bind_normalize? {field : Option String} {path : String}
    (h : field.bind normalize? = some path) : IsNormal path := by
  obtain ⟨text, -, hnormalize⟩ := Option.bind_eq_some_iff.1 h
  exact isNormal_of_normalize? hnormalize

theorem isNormal_of_bind_join? {field : Option String} {dir path : String}
    (h : field.bind (join? dir) = some path) : IsNormal path := by
  obtain ⟨request, -, hjoin⟩ := Option.bind_eq_some_iff.1 h
  exact isNormal_of_join? hjoin

/-! ## Directories above a path -/

/-- Where a text after its last slash is a name, every other slash is in front of that one. -/
theorem eq_or_of_append_slash_eq {dir name above rest : List Char} (hname : '/' ∉ name)
    (h : dir ++ '/' :: name = above ++ '/' :: rest) :
    above = dir ∨ ∃ between, dir = above ++ '/' :: between := by
  rcases List.append_eq_append_iff.1 h with ⟨more, rfl, hmore⟩ | ⟨more, rfl, hmore⟩
  · cases more with
    | nil => exact Or.inl (List.append_nil dir)
    | cons c more =>
        rw [List.cons_append, List.cons.injEq] at hmore
        exact absurd (by simp [hmore.2]) hname
  · cases more with
    | nil => exact Or.inl (List.append_nil above).symm
    | cons c more =>
        rw [List.cons_append, List.cons.injEq] at hmore
        exact Or.inr ⟨more, by rw [hmore.1]⟩

theorem parent?_eq_none_iff {path : String} : parent? path = none ↔ path = "" := by
  unfold parent?
  by_cases hroot : path = ""
  · simp [hroot]
  · rw [if_neg hroot]
    cases Text.cutLast '/' path.toList <;> simp [hroot]

/-- What stands behind the parent has no slash. -/
theorem parent?_eq_some {path dir : String} (h : parent? path = some dir) :
    dir = "" ∧ '/' ∉ path.toList ∨ ∃ name, '/' ∉ name.toList ∧ path = dir ++ "/" ++ name := by
  unfold parent? at h
  split at h
  · cases h
  · split at h
    · next before behind hcut =>
        obtain rfl : String.ofList before = dir := by simpa using h
        obtain ⟨htext, hbehind⟩ := Text.cutLast_eq_some hcut
        refine Or.inr ⟨String.ofList behind, by simpa using hbehind, String.toList_inj.1 ?_⟩
        simp [htext]
    · next hcut =>
        obtain rfl : "" = dir := by simpa using h
        exact Or.inl ⟨rfl, Text.cutLast_eq_none_iff.1 hcut⟩

theorem ancestors_empty : ancestors "" = [] := by
  unfold ancestors
  simp [parent?]

theorem ancestors_of_parent? {path dir : String} (h : parent? path = some dir) :
    ancestors path = dir :: ancestors dir := by
  rw [ancestors]
  split
  · next hnone => rw [h] at hnone; cases hnone
  · next other hother =>
      obtain rfl : dir = other := by simpa [h] using hother
      rfl

/-- **The directories above a path are the root and what its slashes cut off.** -/
theorem mem_ancestors_iff {path dir : String} :
    dir ∈ ancestors path ↔ path ≠ "" ∧ (dir = "" ∨ ∃ rest, path = dir ++ "/" ++ rest) := by
  induction path using ancestors.induct with
  | case1 path hnone =>
      obtain rfl := parent?_eq_none_iff.1 hnone
      simp [ancestors_empty]
  | case2 path parent hparent _ ih =>
      have hne : path ≠ "" := fun hroot => by
        rw [parent?_eq_none_iff.2 hroot] at hparent
        cases hparent
      rw [ancestors_of_parent? hparent, List.mem_cons, ih]
      rcases parent?_eq_some hparent with ⟨rfl, hname⟩ | ⟨name, hname, rfl⟩
      · have hslash : ¬∃ rest, path = dir ++ "/" ++ rest := by
          rintro ⟨rest, rfl⟩
          simp at hname
        simp [hslash, hne]
      · constructor
        · rintro (rfl | ⟨-, hroot | ⟨rest, rfl⟩⟩)
          · exact ⟨hne, Or.inr ⟨name, rfl⟩⟩
          · exact ⟨hne, Or.inl hroot⟩
          · exact ⟨hne, Or.inr ⟨rest ++ "/" ++ name, by simp only [String.append_assoc]⟩⟩
        · rintro ⟨-, rfl | ⟨rest, hrest⟩⟩
          · by_cases hroot : parent = ""
            · exact Or.inl hroot.symm
            · exact Or.inr ⟨hroot, Or.inl rfl⟩
          · -- The last slash is that of the parent, so the directory ends there or earlier.
            have htext : parent.toList ++ '/' :: name.toList = dir.toList ++ '/' :: rest.toList := by
              simpa using congrArg String.toList hrest
            rcases eq_or_of_append_slash_eq hname htext with hdir | ⟨between, hparent'⟩
            · exact Or.inl (String.toList_inj.1 hdir)
            · have hcut : parent = dir ++ "/" ++ String.ofList between :=
                String.toList_inj.1 (by simp [hparent'])
              exact Or.inr ⟨by simp [hcut], Or.inr ⟨_, hcut⟩⟩

/-- What is above a directory above a path is above the path. -/
theorem mem_ancestors_trans {path dir above : String} (hdir : dir ∈ ancestors path)
    (habove : above ∈ ancestors dir) : above ∈ ancestors path := by
  rw [mem_ancestors_iff] at *
  refine ⟨hdir.1, habove.2.imp_right ?_⟩
  rintro ⟨between, rfl⟩
  obtain ⟨rest, rfl⟩ := hdir.2.resolve_left habove.1
  exact ⟨between ++ "/" ++ rest, by simp only [String.append_assoc]⟩

theorem notMem_ancestors_self (dir : String) : dir ∉ ancestors dir := by
  rw [mem_ancestors_iff]
  rintro ⟨hne, hroot | ⟨rest, hrest⟩⟩
  · exact hne hroot
  · have hlength := congrArg String.length hrest
    rw [String.length_append, String.length_append] at hlength
    have hslash : "/".length = 1 := rfl
    omega

/-- What stands in front of a slash of a normal path is a normal path below the root, and what stands
    behind it is not empty. -/
theorem IsNormal.of_append_slash {dir rest : String} (h : IsNormal (dir ++ "/" ++ rest)) :
    IsNormal dir ∧ dir ≠ "" ∧ rest ≠ "" := by
  have htext : (dir ++ "/" ++ rest).toList = dir.toList ++ '/' :: rest.toList := by simp
  obtain ⟨hslash, hnames⟩ := h.resolve_left (by simp)
  rw [htext, List.mem_append, not_or] at hslash
  rw [htext, segments_append_slash_append, List.forall_mem_append] at hnames
  refine ⟨Or.inr ⟨hslash.1, hnames.1⟩, ?_, ?_⟩
  · rintro rfl
    exact (hnames.1 [] (by simp [segments])).1 rfl
  · rintro rfl
    exact (hnames.2 [] (by simp [segments])).1 rfl

theorem IsNormal.of_mem_ancestors {path dir : String} (h : IsNormal path)
    (hdir : dir ∈ ancestors path) : IsNormal dir := by
  rcases (mem_ancestors_iff.1 hdir).2 with hroot | ⟨rest, rfl⟩
  · exact Or.inl hroot
  · exact h.of_append_slash.1

/-! ## Endings -/

/-- A name stays a name with any ending behind it. -/
theorem isName_append_ending {ending : List Char} (h : IsEnding ending) (s : List Char) :
    IsName (s ++ ending) := by
  obtain ⟨c, hc, hdot⟩ := h.2
  have hmem : c ∈ s ++ ending := List.mem_append_right _ hc
  refine ⟨List.ne_nil_of_mem hmem, fun heq => ?_, fun heq => ?_⟩
  · rw [heq] at hmem
    exact hdot (by simpa using hmem)
  · rw [heq] at hmem
    exact hdot (by simpa using hmem)

/-- **Another ending keeps a path normal.** The old one may be empty. -/
theorem IsNormal.replace_tail {stem tail ending : List Char}
    (h : IsNormal (String.ofList (stem ++ tail)))
    (htail : NoSeparator tail) (hending : IsEnding ending) :
    IsNormal (String.ofList (stem ++ ending)) := by
  obtain ⟨front, last, hsegs⟩ := exists_segments_append stem
  -- The root has no segment that names something, so only its new ending matters.
  have hold : '\\' ∉ stem ∧ ∀ s ∈ front, IsName s := by
    rcases h with h | ⟨hslash, hname⟩
    · have hnil : stem = [] := by
        have := congrArg String.toList h
        simp only [String.toList_ofList, String.toList_empty, List.append_eq_nil_iff] at this
        exact this.1
      subst hnil
      have hfront := hsegs [] noSeparator_nil
      rw [List.append_nil, segments_of_noSeparator noSeparator_nil] at hfront
      have : front = [] := by
        cases front with
        | nil => rfl
        | cons s front => simp at hfront
      simp [this]
    · rw [String.toList_ofList] at hslash hname
      rw [hsegs tail htail] at hname
      exact ⟨fun hmem => hslash (List.mem_append_left _ hmem),
        fun s hs => hname s (List.mem_append_left _ hs)⟩
  refine Or.inr ⟨?_, ?_⟩
  · rw [String.toList_ofList, List.mem_append, not_or]
    exact ⟨hold.1, fun hmem => absurd (hending.1 _ hmem) (by decide)⟩
  · rw [String.toList_ofList, hsegs ending hending.1]
    intro s hs
    rcases List.mem_append.1 hs with hs | hs
    · exact hold.2 s hs
    · rw [List.mem_singleton.1 hs]
      exact isName_append_ending hending last

theorem IsNormal.append_ending {path ending : String} (h : IsNormal path)
    (hending : IsEnding ending.toList) : IsNormal (path ++ ending) := by
  have happ : String.ofList (path.toList ++ ending.toList) = path ++ ending := by
    rw [← String.toList_append, String.ofList_toList]
  rw [← happ]
  refine IsNormal.replace_tail ?_ noSeparator_nil hending
  simpa using h

theorem pairedEndings_spec :
    ∀ pair ∈ pairedEndings, NoSeparator pair.1.toList ∧ IsEnding pair.2.toList := by
  decide

theorem pairedEndings_declaration : ∀ pair ∈ pairedEndings, pair.2 ∈ declarationEndings := by
  decide

theorem isDeclaration_append {ending : String} (h : ending ∈ declarationEndings) (stem : String) :
    isDeclaration (stem ++ ending) = true := by
  rw [isDeclaration, List.any_eq_true]
  exact ⟨ending, h, by simp [Text.endsWith]⟩

/-- The declaration file that goes with a script has a normal path. -/
theorem IsNormal.counterpart {path declaration : String} (h : IsNormal path)
    (hc : counterpart? path = some declaration) : IsNormal declaration := by
  rw [counterpart?] at hc
  split at hc
  · exact absurd hc (by simp)
  · obtain ⟨⟨script, ending⟩, hmem, hc⟩ := List.exists_of_findSome?_eq_some hc
    obtain ⟨stem, hdrop, rfl⟩ := Option.map_eq_some_iff.1 hc
    obtain ⟨chars, hchars, rfl⟩ := Option.map_eq_some_iff.1 hdrop
    have hpath : String.ofList (chars ++ script.toList) = path := by
      rw [← Text.beforeTail?_eq_some_iff.1 hchars, String.ofList_toList]
    have hpair : NoSeparator script.toList ∧ IsEnding ending.toList :=
      pairedEndings_spec (script, ending) hmem
    rw [← hpath] at h
    have hnew := h.replace_tail hpair.1 hpair.2
    rwa [String.ofList_append, String.ofList_toList] at hnew

/-- Whatever a path is, its counterpart is a declaration. -/
theorem isDeclaration_of_counterpart? {path declaration : String}
    (h : counterpart? path = some declaration) : isDeclaration declaration = true := by
  rw [counterpart?] at h
  split at h
  · exact absurd h (by simp)
  · obtain ⟨⟨script, ending⟩, hmem, hc⟩ := List.exists_of_findSome?_eq_some h
    obtain ⟨stem, -, rfl⟩ := Option.map_eq_some_iff.1 hc
    have hending : ending ∈ declarationEndings :=
      pairedEndings_declaration (script, ending) hmem
    exact isDeclaration_append hending stem

end Path

/-- A kind is one of a declaration exactly when the ending of the path says so. -/
theorem FileKind.isDeclaration_ofPath (path : String) :
    (FileKind.ofPath path).isDeclaration = Path.isDeclaration path := by
  rw [FileKind.ofPath, Path.isDeclaration]
  simp only [Path.declarationEndings, List.any_cons, List.any_nil, Bool.or_false]
  by_cases hmts : Text.endsWith ".d.mts" path = true
  · simp [hmts, isDeclaration]
  · by_cases hcts : Text.endsWith ".d.cts" path = true
    · simp [hmts, hcts, isDeclaration]
    · by_cases hts : Text.endsWith ".d.ts" path = true
      · simp [hmts, hcts, hts, isDeclaration]
      · rw [if_neg hmts, if_neg hcts, if_neg hts]
        simp only [Bool.not_eq_true] at hmts hcts hts
        rw [hmts, hcts, hts]
        split
        · rfl
        · split_ifs <;> rfl

end TypingsAudit
