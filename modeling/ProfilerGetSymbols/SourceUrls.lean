import ProfilerGetSymbols.Windows
import ProfilerGetSymbols.ProgLib.Regex

/-! # Source URLs — which hosts a source server's URL is recognised for

    A source server names a file by a URL.  Four patterns recognise the URLs of some
    hosts and read a repository, a revision and a path off them, or a bucket and a path.

    Each pattern is told by the URLs that it matches.  The one for S3 takes any letter
    for a dot, a slash too, and of several readings the one with the longest bucket. -/

namespace ProfilerGetSymbols.Windows.SrcSrvPathMapper

open ProgLib Paths

/-! ## The patterns -/

/-- `[0-9a-f]` -/
def isHexDigit (c : Char) : Bool := ('0' ≤ c && c ≤ '9') || ('a' ≤ c && c ≤ 'f')

/-- `[^/]+` -/
def segmentPattern : Regex Char String := .plus (.letter (· != '/'))

/-- `.` -/
def anyPattern : Regex Char String := .letter (· != '\n')

/-- `github_regex`. -/
def githubPattern : Regex Char String :=
  .word "https://raw.githubusercontent.com/".toList
    ++ .group "repo" (segmentPattern ++ .word ['/'] ++ segmentPattern) ++ .word ['/']
    ++ .group "rev" segmentPattern ++ .word ['/'] ++ .group "path" (.star anyPattern) ++ .stop

/-- `hg_regex`. -/
def hgPattern : Regex Char String :=
  .word "https://".toList ++ .group "repo" (.word "hg.".toList ++ .plus anyPattern)
    ++ .word "/raw-file/".toList ++ .group "rev" (.plus (.letter isHexDigit)) ++ .word ['/']
    ++ .group "path" (.star anyPattern) ++ .stop

/-- `.s3.amazonaws.com/(?P<digest_and_path>.*)$` -/
def afterBucketPattern : Regex Char String :=
  anyPattern ++ .word "s3".toList ++ anyPattern ++ .word "amazonaws".toList ++ anyPattern
    ++ .word "com/".toList ++ .group "digest_and_path" (.star anyPattern) ++ .stop

/-- `s3_regex`. -/
def s3Pattern : Regex Char String :=
  .word "https://".toList ++ .group "bucket" segmentPattern ++ afterBucketPattern

/-- `gitiles_regex`. -/
def gitilesPattern : Regex Char String :=
  .word "https://".toList ++ .group "repo" (.plus anyPattern) ++ .word ".git/+/".toList
    ++ .group "rev" segmentPattern ++ .word ['/'] ++ .group "path" (.star anyPattern)
    ++ .word "?format=TEXT".toList ++ .stop

/-- The captures of a pattern for a repository, which starts with `^`. -/
def repoCaptures (pattern : Regex Char String) (url : String) : Option RepoCaptures := do
  let captures ← pattern.matchHere url.toList
  let repo ← captures.lookup "repo"
  let rev ← captures.lookup "rev"
  let path ← captures.lookup "path"
  return ⟨String.ofList repo, String.ofList rev, String.ofList path⟩

def s3Captures (url : String) : Option S3Captures := do
  let captures ← s3Pattern.matchHere url.toList
  let bucket ← captures.lookup "bucket"
  let digestAndPath ← captures.lookup "digest_and_path"
  return ⟨String.ofList bucket, String.ofList digestAndPath⟩

/-- The regex crate, as far as these patterns go. -/
structure HasPatterns [Crates] : Prop where
  github : ∀ url, Crates.githubRegex url = repoCaptures githubPattern url
  hg : ∀ url, Crates.hgRegex url = repoCaptures hgPattern url
  s3 : ∀ url, Crates.s3Regex url = s3Captures url
  gitiles : ∀ url, Crates.gitilesRegex url = repoCaptures gitilesPattern url

/-! ## The URLs that are recognised -/

/-- Something between two slashes. -/
def Segment (s : String) : Prop := s ≠ "" ∧ '/' ∉ s.toList

/-- Something on one line. -/
def OneLine (s : String) : Prop := '\n' ∉ s.toList

structure GithubUrl (captures : RepoCaptures) (url : String) : Prop where
  eq : url = "https://raw.githubusercontent.com/" ++ captures.repo ++ "/" ++ captures.rev ++ "/"
    ++ captures.path
  repo : ∃ owner name, captures.repo = owner ++ "/" ++ name ∧ Segment owner ∧ Segment name
  rev : Segment captures.rev
  path : OneLine captures.path

structure HgUrl (captures : RepoCaptures) (url : String) : Prop where
  eq : url = "https://" ++ captures.repo ++ "/raw-file/" ++ captures.rev ++ "/" ++ captures.path
  repo : ∃ host, captures.repo = "hg." ++ host ∧ host ≠ "" ∧ OneLine host
  rev : captures.rev ≠ "" ∧ ∀ c ∈ captures.rev.toList, isHexDigit c = true
  path : OneLine captures.path

/-- With three letters in the place of the dots. -/
structure S3Url (captures : S3Captures) (d₁ d₂ d₃ : Char) (url : String) : Prop where
  eq : url = "https://" ++ captures.bucket ++ String.singleton d₁ ++ "s3" ++ String.singleton d₂
    ++ "amazonaws" ++ String.singleton d₃ ++ "com/" ++ captures.digestAndPath
  bucket : Segment captures.bucket
  dots : d₁ ≠ '\n' ∧ d₂ ≠ '\n' ∧ d₃ ≠ '\n'
  path : OneLine captures.digestAndPath

structure GitilesUrl (captures : RepoCaptures) (url : String) : Prop where
  eq : url = "https://" ++ captures.repo ++ ".git/+/" ++ captures.rev ++ "/" ++ captures.path
    ++ "?format=TEXT"
  repo : captures.repo ≠ "" ∧ OneLine captures.repo
  rev : Segment captures.rev
  path : OneLine captures.path

/-! ## What the patterns match -/

section Matches

variable {url : String} {captures : Regex.Captures Char String}

theorem segment_ofList {w : List Char} (hne : w ≠ []) (hw : ∀ c ∈ w, (c != '/') = true) :
    Segment (String.ofList w) := by
  constructor
  · intro h
    refine hne ?_
    rw [← String.toList_ofList (l := w), h]
    rfl
  · rw [String.toList_ofList]
    intro hmem
    exact absurd (hw _ hmem) (by decide)

theorem oneLine_ofList {w : List Char} (hw : ∀ c ∈ w, (c != '\n') = true) :
    OneLine (String.ofList w) := by
  rw [OneLine, String.toList_ofList]
  intro hmem
  exact absurd (hw _ hmem) (by decide)

theorem Segment.letters {s : String} (h : Segment s) :
    s.toList ≠ [] ∧ ∀ c ∈ s.toList, (c != '/') = true := by
  constructor
  · intro hnil
    refine h.1 ?_
    rw [← String.toList_inj, hnil]
    rfl
  · intro c hc
    exact bne_iff_ne.mpr (fun heq => h.2 (heq ▸ hc))

theorem OneLine.letters {s : String} (h : OneLine s) : ∀ c ∈ s.toList, (c != '\n') = true := by
  intro c hc
  exact bne_iff_ne.mpr (fun heq => h (heq ▸ hc))

/-- The captures as a match collects them. -/
def collected (c : RepoCaptures) : Regex.Captures Char String :=
  [("path", c.path.toList), ("rev", c.rev.toList), ("repo", c.repo.toList)]

/-- A pattern is told by what its matches are, and where it has one. -/
theorem repoCaptures_spec {pattern : Regex Char String} {shape : RepoCaptures → String → Prop}
    (hsound : ∀ captures, pattern.matchHere url.toList = some captures →
      ∃ c, shape c url ∧ captures = collected c)
    (hcomplete : ∀ c, shape c url → pattern.matchHere url.toList ≠ none) :
    (∀ c, repoCaptures pattern url = some c → shape c url) ∧
      (repoCaptures pattern url = none → ¬ ∃ c, shape c url) := by
  cases hmatch : pattern.matchHere url.toList with
  | none =>
      have hnone : repoCaptures pattern url = none := by
        rw [repoCaptures, hmatch]
        rfl
      refine ⟨?_, ?_⟩
      · intro c hc
        rw [hnone] at hc
        cases hc
      · rintro - ⟨c, hc⟩
        exact hcomplete c hc hmatch
  | some captures =>
      obtain ⟨c, hshape, rfl⟩ := hsound captures hmatch
      have hsome : repoCaptures pattern url = some c := by
        rw [repoCaptures, hmatch]
        show some (⟨String.ofList c.repo.toList, String.ofList c.rev.toList,
          String.ofList c.path.toList⟩ : RepoCaptures) = _
        simp only [String.ofList_toList]
      refine ⟨?_, ?_⟩
      · intro c' hc'
        rw [← Option.some.inj (hsome.symm.trans hc')]
        exact hshape
      · intro hnone
        rw [hsome] at hnone
        cases hnone

theorem github_sound (h : githubPattern.matchHere url.toList = some captures) :
    ∃ c, GithubUrl c url ∧ captures = collected c := by
  simp only [Regex.matchHere, githubPattern, segmentPattern, Regex.run_append, Regex.run_group]
    at h
  obtain ⟨t, hurl, h⟩ := Regex.run_word_eq_some.mp h
  obtain ⟨owner, t, rfl, howner, howner', h, -⟩ := Regex.run_plus_letter_eq_some h
  obtain ⟨t, rfl, h⟩ := Regex.run_word_eq_some.mp h
  obtain ⟨name, t, rfl, hname, hname', h, -⟩ := Regex.run_plus_letter_eq_some h
  obtain ⟨t, rfl, h⟩ := Regex.run_word_eq_some.mp h
  obtain ⟨rev, t, rfl, hrev, hrev', h, -⟩ := Regex.run_plus_letter_eq_some h
  obtain ⟨t, rfl, h⟩ := Regex.run_word_eq_some.mp h
  obtain ⟨path, t, rfl, hpath, h, -⟩ := Regex.run_star_letter_eq_some h
  obtain ⟨rfl, h⟩ := Regex.run_stop_eq_some.mp h
  rw [← List.append_assoc owner, ← List.append_assoc (owner ++ ['/'])] at h
  simp only [Regex.take_front] at h
  refine ⟨⟨String.ofList (owner ++ ['/'] ++ name), String.ofList rev, String.ofList path⟩,
    ⟨?_, ?_, ?_, ?_⟩, ?_⟩
  · rw [← String.toList_inj, hurl]
    simp
  · refine ⟨String.ofList owner, String.ofList name, ?_, segment_ofList howner howner',
      segment_ofList hname hname'⟩
    rw [← String.toList_inj]
    simp
  · exact segment_ofList hrev hrev'
  · exact oneLine_ofList hpath
  · rw [← Option.some.inj h, collected]
    simp only [String.toList_ofList]

theorem github_complete {c : RepoCaptures} (h : GithubUrl c url) :
    githubPattern.matchHere url.toList ≠ none := by
  obtain ⟨owner, name, hrepo, howner, hname⟩ := h.repo
  have hurl : url.toList = "https://raw.githubusercontent.com/".toList ++ (owner.toList ++ (['/']
      ++ (name.toList ++ (['/'] ++ (c.rev.toList ++ (['/'] ++ (c.path.toList ++ []))))))) := by
    rw [h.eq, hrepo]
    simp
  obtain ⟨howner₁, howner₂⟩ := howner.letters
  obtain ⟨hname₁, hname₂⟩ := hname.letters
  obtain ⟨hrev₁, hrev₂⟩ := h.rev.letters
  rw [hurl]
  refine Regex.Matches.run_ne_none (((((((Regex.matches_word _ _ _).cat (.group
    (((Regex.matches_plus_letter howner₁ howner₂ _ _).cat (Regex.matches_word _ _ _)).cat
      (Regex.matches_plus_letter hname₁ hname₂ _ _)))).cat (Regex.matches_word _ _ _)).cat
    (.group (Regex.matches_plus_letter hrev₁ hrev₂ _ _))).cat (Regex.matches_word _ _ _)).cat
    (.group (Regex.matches_star_letter h.path.letters _ _))).cat (.stop _))
    (Option.some_ne_none _)

theorem hg_sound (h : hgPattern.matchHere url.toList = some captures) :
    ∃ c, HgUrl c url ∧ captures = collected c := by
  simp only [Regex.matchHere, hgPattern, anyPattern, Regex.run_append, Regex.run_group] at h
  obtain ⟨t, hurl, h⟩ := Regex.run_word_eq_some.mp h
  obtain ⟨t, rfl, h⟩ := Regex.run_word_eq_some.mp h
  obtain ⟨host, t, rfl, hhost, hhost', h, -⟩ := Regex.run_plus_letter_eq_some h
  obtain ⟨t, rfl, h⟩ := Regex.run_word_eq_some.mp h
  obtain ⟨rev, t, rfl, hrev, hrev', h, -⟩ := Regex.run_plus_letter_eq_some h
  obtain ⟨t, rfl, h⟩ := Regex.run_word_eq_some.mp h
  obtain ⟨path, t, rfl, hpath, h, -⟩ := Regex.run_star_letter_eq_some h
  obtain ⟨rfl, h⟩ := Regex.run_stop_eq_some.mp h
  rw [← List.append_assoc "hg.".toList] at h
  simp only [Regex.take_front] at h
  refine ⟨⟨String.ofList ("hg.".toList ++ host), String.ofList rev, String.ofList path⟩,
    ⟨?_, ?_, ?_, ?_⟩, ?_⟩
  · rw [← String.toList_inj, hurl]
    simp
  · refine ⟨String.ofList host, ?_, ?_, oneLine_ofList hhost'⟩
    · rw [← String.toList_inj]
      simp
    · simpa using hhost
  · refine ⟨by simpa using hrev, ?_⟩
    rw [String.toList_ofList]
    exact hrev'
  · exact oneLine_ofList hpath
  · rw [← Option.some.inj h, collected]
    simp only [String.toList_ofList]

theorem hg_complete {c : RepoCaptures} (h : HgUrl c url) :
    hgPattern.matchHere url.toList ≠ none := by
  obtain ⟨host, hrepo, hne, hhost⟩ := h.repo
  obtain ⟨hrev₁, hrev₂⟩ := h.rev
  have hurl : url.toList = "https://".toList ++ ("hg.".toList ++ (host.toList
      ++ ("/raw-file/".toList ++ (c.rev.toList ++ (['/'] ++ (c.path.toList ++ [])))))) := by
    rw [h.eq, hrepo]
    simp
  rw [hurl]
  refine Regex.Matches.run_ne_none (((((((Regex.matches_word _ _ _).cat (.group
    ((Regex.matches_word _ _ _).cat (Regex.matches_plus_letter (by simpa using hne)
      hhost.letters _ _)))).cat (Regex.matches_word _ _ _)).cat (.group
    (Regex.matches_plus_letter (by simpa using hrev₁) hrev₂ _ _))).cat
    (Regex.matches_word _ _ _)).cat (.group (Regex.matches_star_letter h.path.letters _ _))).cat
    (.stop _)) (Option.some_ne_none _)

theorem gitiles_sound (h : gitilesPattern.matchHere url.toList = some captures) :
    ∃ c, GitilesUrl c url ∧ captures = collected c := by
  simp only [Regex.matchHere, gitilesPattern, anyPattern, segmentPattern, Regex.run_append,
    Regex.run_group] at h
  obtain ⟨t, hurl, h⟩ := Regex.run_word_eq_some.mp h
  obtain ⟨repo, t, rfl, hrepo, hrepo', h, -⟩ := Regex.run_plus_letter_eq_some h
  obtain ⟨t, rfl, h⟩ := Regex.run_word_eq_some.mp h
  obtain ⟨rev, t, rfl, hrev, hrev', h, -⟩ := Regex.run_plus_letter_eq_some h
  obtain ⟨t, rfl, h⟩ := Regex.run_word_eq_some.mp h
  obtain ⟨path, t, rfl, hpath, h, -⟩ := Regex.run_star_letter_eq_some h
  obtain ⟨t, rfl, h⟩ := Regex.run_word_eq_some.mp h
  obtain ⟨rfl, h⟩ := Regex.run_stop_eq_some.mp h
  simp only [Regex.take_front] at h
  refine ⟨⟨String.ofList repo, String.ofList rev, String.ofList path⟩, ⟨?_, ?_, ?_, ?_⟩, ?_⟩
  · rw [← String.toList_inj, hurl]
    simp
  · exact ⟨by simpa using hrepo, oneLine_ofList hrepo'⟩
  · exact segment_ofList hrev hrev'
  · exact oneLine_ofList hpath
  · rw [← Option.some.inj h, collected]
    simp only [String.toList_ofList]

theorem gitiles_complete {c : RepoCaptures} (h : GitilesUrl c url) :
    gitilesPattern.matchHere url.toList ≠ none := by
  obtain ⟨hrev₁, hrev₂⟩ := h.rev.letters
  have hurl : url.toList = "https://".toList ++ (c.repo.toList ++ (".git/+/".toList
      ++ (c.rev.toList ++ (['/'] ++ (c.path.toList ++ ("?format=TEXT".toList ++ [])))))) := by
    rw [h.eq]
    simp
  rw [hurl]
  refine Regex.Matches.run_ne_none ((((((((Regex.matches_word _ _ _).cat (.group
    (Regex.matches_plus_letter (by simpa using h.repo.1) h.repo.2.letters _ _))).cat
    (Regex.matches_word _ _ _)).cat (.group (Regex.matches_plus_letter hrev₁ hrev₂ _ _))).cat
    (Regex.matches_word _ _ _)).cat (.group (Regex.matches_star_letter h.path.letters _ _))).cat
    (Regex.matches_word _ _ _)).cat (.stop _)) (Option.some_ne_none _)

theorem matches_any {d : Char} (h : d ≠ '\n') (t : List Char)
    (c : Regex.Captures Char String) : Regex.Matches anyPattern (d :: t) t c c :=
  .letter (p := (· != '\n')) (bne_iff_ne.mpr h) t c

theorem afterBucket_matches {d₁ d₂ d₃ : Char} {path : List Char}
    (hdots : d₁ ≠ '\n' ∧ d₂ ≠ '\n' ∧ d₃ ≠ '\n') (hpath : ∀ c ∈ path, (c != '\n') = true)
    (c : Regex.Captures Char String) :
    Regex.Matches afterBucketPattern
      (d₁ :: ("s3".toList ++ d₂ :: ("amazonaws".toList ++ d₃ :: ("com/".toList ++ path)))) [] c
      (("digest_and_path", path) :: c) := by
  obtain ⟨h₁, h₂, h₃⟩ := hdots
  have hrest := (Regex.matches_star_letter hpath [] c).group_front "digest_and_path"
  rw [List.append_nil] at hrest
  have hword₁ := Regex.matches_word "s3".toList
    (d₂ :: ("amazonaws".toList ++ d₃ :: ("com/".toList ++ path))) c
  have hword₂ := Regex.matches_word "amazonaws".toList (d₃ :: ("com/".toList ++ path)) c
  have hword₃ := Regex.matches_word "com/".toList path c
  rw [afterBucketPattern]
  exact (((((((matches_any h₁ _ c).cat hword₁).cat (matches_any h₂ _ c)).cat hword₂).cat
    (matches_any h₃ _ c)).cat hword₃).cat hrest).cat (.stop _)

theorem S3Url.letters {c : S3Captures} {d₁ d₂ d₃ : Char} (h : S3Url c d₁ d₂ d₃ url) :
    url.toList = "https://".toList ++ (c.bucket.toList ++ d₁ :: ("s3".toList ++ d₂ ::
      ("amazonaws".toList ++ d₃ :: ("com/".toList ++ c.digestAndPath.toList)))) := by
  rw [h.eq]
  simp

/-- No reading of the URL has a longer bucket. -/
def Longest (c : S3Captures) (url : String) : Prop :=
  ∀ c' d₁ d₂ d₃, S3Url c' d₁ d₂ d₃ url → c'.bucket.toList.length ≤ c.bucket.toList.length

theorem s3_sound (h : s3Pattern.matchHere url.toList = some captures) :
    ∃ c d₁ d₂ d₃, S3Url c d₁ d₂ d₃ url ∧ Longest c url ∧
      captures = [("digest_and_path", c.digestAndPath.toList), ("bucket", c.bucket.toList)] := by
  simp only [Regex.matchHere, s3Pattern, segmentPattern, Regex.run_append, Regex.run_group] at h
  obtain ⟨t, hurl, h⟩ := Regex.run_word_eq_some.mp h
  obtain ⟨bucket, t', rfl, hbucket, hbucket', h, hlongest⟩ := Regex.run_plus_letter_eq_some h
  have hlong : ∀ c' d₁ d₂ d₃, S3Url c' d₁ d₂ d₃ url → c'.bucket.toList.length ≤ bucket.length := by
    intro c' d₁ d₂ d₃ h'
    by_contra hlt
    -- a longer bucket extends this one, and the rest would have matched behind it
    have heq := List.append_cancel_left (hurl.symm.trans h'.letters)
    rcases List.append_eq_append_iff.mp heq with ⟨more, hmore, ht⟩ | ⟨more, hmore, -⟩
    · have hne : more ≠ [] := by
        rintro rfl
        rw [List.append_nil] at hmore
        exact hlt (by rw [hmore])
      have hslash : ∀ a ∈ more, (a != '/') = true := by
        intro a ha
        exact h'.bucket.letters.2 a (hmore ▸ List.mem_append_right _ ha)
      exact (afterBucket_matches h'.dots h'.path.letters _).run_ne_none
        (k := fun _ c => some c) (Option.some_ne_none _) (hlongest more _ ht hne hslash)
    · rw [hmore, List.length_append] at hlt
      omega
  simp only [afterBucketPattern, anyPattern, Regex.run_append, Regex.run_group] at h
  obtain ⟨d₁, t, rfl, hd₁, h⟩ := Regex.run_letter_eq_some.mp h
  obtain ⟨t, rfl, h⟩ := Regex.run_word_eq_some.mp h
  obtain ⟨d₂, t, rfl, hd₂, h⟩ := Regex.run_letter_eq_some.mp h
  obtain ⟨t, rfl, h⟩ := Regex.run_word_eq_some.mp h
  obtain ⟨d₃, t, rfl, hd₃, h⟩ := Regex.run_letter_eq_some.mp h
  obtain ⟨t, rfl, h⟩ := Regex.run_word_eq_some.mp h
  obtain ⟨path, t, rfl, hpath, h, -⟩ := Regex.run_star_letter_eq_some h
  obtain ⟨rfl, h⟩ := Regex.run_stop_eq_some.mp h
  simp only [Regex.take_front] at h
  refine ⟨⟨String.ofList bucket, String.ofList path⟩, d₁, d₂, d₃, ⟨?_, ?_, ?_, ?_⟩, ?_, ?_⟩
  · rw [← String.toList_inj, hurl]
    simp
  · exact segment_ofList hbucket hbucket'
  · exact ⟨bne_iff_ne.mp hd₁, bne_iff_ne.mp hd₂, bne_iff_ne.mp hd₃⟩
  · exact oneLine_ofList hpath
  · intro c' d₁' d₂' d₃' h'
    rw [String.toList_ofList]
    exact hlong c' d₁' d₂' d₃' h'
  · rw [← Option.some.inj h]
    simp only [String.toList_ofList]

theorem s3_complete {c : S3Captures} {d₁ d₂ d₃ : Char} (h : S3Url c d₁ d₂ d₃ url) :
    s3Pattern.matchHere url.toList ≠ none := by
  obtain ⟨hbucket₁, hbucket₂⟩ := h.bucket.letters
  have hword := Regex.matches_word "https://".toList (c.bucket.toList ++ d₁ :: ("s3".toList
    ++ d₂ :: ("amazonaws".toList ++ d₃ :: ("com/".toList ++ c.digestAndPath.toList))))
    ([] : Regex.Captures Char String)
  have hbucket := (Regex.matches_plus_letter hbucket₁ hbucket₂ (d₁ :: ("s3".toList
    ++ d₂ :: ("amazonaws".toList ++ d₃ :: ("com/".toList ++ c.digestAndPath.toList))))
    []).group_front "bucket"
  have hmatches := (hword.cat hbucket).cat (afterBucket_matches h.dots h.path.letters _)
  rw [h.letters]
  exact hmatches.run_ne_none (Option.some_ne_none _)

theorem s3Captures_spec :
    (∀ c, s3Captures url = some c → ∃ d₁ d₂ d₃, S3Url c d₁ d₂ d₃ url ∧ Longest c url) ∧
      (s3Captures url = none → ¬ ∃ c d₁ d₂ d₃, S3Url c d₁ d₂ d₃ url) := by
  cases hmatch : s3Pattern.matchHere url.toList with
  | none =>
      have hnone : s3Captures url = none := by
        rw [s3Captures, hmatch]
        rfl
      refine ⟨?_, ?_⟩
      · intro c hc
        rw [hnone] at hc
        cases hc
      · rintro - ⟨c, d₁, d₂, d₃, hc⟩
        exact s3_complete hc hmatch
  | some captures =>
      obtain ⟨c, d₁, d₂, d₃, hshape, hlongest, rfl⟩ := s3_sound hmatch
      have hsome : s3Captures url = some c := by
        rw [s3Captures, hmatch]
        show some (⟨String.ofList c.bucket.toList, String.ofList c.digestAndPath.toList⟩ :
          S3Captures) = _
        simp only [String.ofList_toList]
      refine ⟨?_, ?_⟩
      · intro c' hc'
        rw [← Option.some.inj (hsome.symm.trans hc')]
        exact ⟨d₁, d₂, d₃, hshape, hlongest⟩
      · intro hnone
        rw [hsome] at hnone
        cases hnone

end Matches

end ProfilerGetSymbols.Windows.SrcSrvPathMapper
