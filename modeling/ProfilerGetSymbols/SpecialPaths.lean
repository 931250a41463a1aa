import ProfilerGetSymbols.PathMemo
import ProfilerGetSymbols.SourceUrls

/-! # Special paths — back from a source server's file to its URL

    A file whose URL is recognised gets a special path, in one of three formats: the
    host's kind, and three parts with colons between them.  It is worth something if
    it leads back to the file.  `urlOfSpecialPath` reads the formats.

    A colon too many in the URL spoils them; so does a letter that the pattern for S3
    took for a dot. -/

namespace ProfilerGetSymbols.Windows.SrcSrvPathMapper

open ProgLib Paths

/-! ## Reading a special path -/

/-- The URL for the parts of a special path. -/
def urlOfParts (kind first second third : String) : Option String :=
  if kind = "git" then
    if "github.com/".toList <+: first.toList then
      some ("https://raw.githubusercontent.com/" ++ String.ofList (first.toList.drop 11) ++ "/"
        ++ third ++ "/" ++ second)
    else some ("https://" ++ first ++ ".git/+/" ++ third ++ "/" ++ second ++ "?format=TEXT")
  else if kind = "hg" then some ("https://" ++ first ++ "/raw-file/" ++ third ++ "/" ++ second)
  else if kind = "s3" ∧ third = "" then some ("https://" ++ first ++ ".s3.amazonaws.com/" ++ second)
  else none

/-- Where a special path leads; a text in no format is a URL. -/
def urlOfSpecialPath (specialPath : String) : String :=
  match (specialPath.toList.splitOn ':').map String.ofList with
  | [kind, first, second, third] => (urlOfParts kind first second third).getD specialPath
  | _ => specialPath

/-- There is no colon in the text. -/
def NoColon (s : String) : Prop := ':' ∉ s.toList

theorem noColon_iff {s : String} : NoColon s ↔ s.toList.count ':' = 0 := by
  rw [NoColon, List.count_eq_zero]

/-- Four parts with colons between them. -/
def joined (kind first second third : String) : String :=
  kind ++ ":" ++ first ++ ":" ++ second ++ ":" ++ third

theorem length_splitOn (a : Char) (l : List Char) :
    (l.splitOn a).length = l.count a + 1 := by
  induction l with
  | nil => rfl
  | cons b l ih =>
      rw [List.splitOn_cons_eq_if_modifyHead, List.count_cons]
      split
      · rw [List.length_cons, ih]
      · rw [List.length_modifyHead, ih, Nat.add_zero]

theorem urlOfSpecialPath_joined {kind first second third : String} (hkind : NoColon kind)
    (hfirst : NoColon first) (hsecond : NoColon second) (hthird : NoColon third) :
    urlOfSpecialPath (joined kind first second third)
      = (urlOfParts kind first second third).getD (joined kind first second third) := by
  have hletters : (joined kind first second third).toList = kind.toList ++ ':' :: (first.toList
      ++ ':' :: (second.toList ++ ':' :: third.toList)) := by
    simp [joined]
  have hsplit : ((joined kind first second third).toList.splitOn ':').map String.ofList
      = [kind, first, second, third] := by
    rw [hletters, List.splitOn_append_cons_self_of_not_mem hkind,
      List.splitOn_append_cons_self_of_not_mem hfirst,
      List.splitOn_append_cons_self_of_not_mem hsecond, List.splitOn_eq_singleton hthird]
    simp
  rw [urlOfSpecialPath, hsplit]

theorem urlOfSpecialPath_of_count {specialPath : String} (h : specialPath.toList.count ':' ≠ 3) :
    urlOfSpecialPath specialPath = specialPath := by
  have hlength := length_splitOn ':' specialPath.toList
  rw [urlOfSpecialPath]
  split
  · next kind first second third hparts =>
      have hfour := congrArg List.length hparts
      rw [List.length_map, hlength] at hfour
      exact absurd (Nat.succ.inj hfour) h
  · rfl

theorem count_joined (kind first second third : String) :
    (joined kind first second third).toList.count ':' = kind.toList.count ':'
      + first.toList.count ':' + second.toList.count ':' + third.toList.count ':' + 3 := by
  simp [joined, List.count_append]
  omega

/-- The parts that are read are those of the text. -/
theorem joined_of_split {specialPath kind first second third : String}
    (h : (specialPath.toList.splitOn ':').map String.ofList = [kind, first, second, third]) :
    specialPath = joined kind first second third ∧
      NoColon kind ∧ NoColon first ∧ NoColon second ∧ NoColon third := by
  have hparts : specialPath.toList.splitOn ':'
      = [kind.toList, first.toList, second.toList, third.toList] := by
    have hletters := congrArg (List.map String.toList) h
    rw [List.map_map] at hletters
    simpa [Function.comp_def] using hletters
  have hsplit : [':'].intercalate (specialPath.toList.splitOn ':') = specialPath.toList :=
    List.intercalate_splitOn ':'
  have heq : specialPath = joined kind first second third := by
    rw [← String.toList_inj, ← hsplit, hparts]
    simp [joined, List.intercalate, List.intersperse]
  have hlength := length_splitOn ':' specialPath.toList
  rw [hparts, heq, count_joined] at hlength
  simp only [List.length_cons, List.length_nil] at hlength
  refine ⟨heq, ?_, ?_, ?_, ?_⟩
  · rw [noColon_iff]
    omega
  · rw [noColon_iff]
    omega
  · rw [noColon_iff]
    omega
  · rw [noColon_iff]
    omega

/-- A special path does not start as a URL does. -/
theorem joined_ne_url {kind first second third url : String}
    (hkind : kind = "git" ∨ kind = "hg" ∨ kind = "s3") (hurl : "https:".toList <+: url.toList) :
    joined kind first second third ≠ url := by
  rintro rfl
  rcases hkind with rfl | rfl | rfl
  · simp [joined] at hurl
  · simp [joined] at hurl
  · simp [joined] at hurl

theorem noColon_kind {kind : String} (h : kind = "git" ∨ kind = "hg" ∨ kind = "s3") :
    NoColon kind := by
  rw [noColon_iff]
  rcases h with rfl | rfl | rfl
  · rfl
  · rfl
  · rfl

/-- **A SPECIAL PATH LEADS BACK** to a URL exactly if that is the one for its parts, and
    none of them has a colon. -/
theorem joined_leadsBack_iff {kind first second third url : String}
    (hkind : kind = "git" ∨ kind = "hg" ∨ kind = "s3") (hurl : "https:".toList <+: url.toList) :
    urlOfSpecialPath (joined kind first second third) = url ↔
      urlOfParts kind first second third = some url ∧
        NoColon first ∧ NoColon second ∧ NoColon third := by
  have hne : joined kind first second third ≠ url := joined_ne_url hkind hurl
  constructor
  · intro h
    have hcolon : NoColon first ∧ NoColon second ∧ NoColon third := by
      by_contra hcolon
      have hcount : (joined kind first second third).toList.count ':' ≠ 3 := by
        rw [noColon_iff, noColon_iff, noColon_iff] at hcolon
        rw [count_joined]
        omega
      rw [urlOfSpecialPath_of_count hcount] at h
      exact hne h
    obtain ⟨hfirst, hsecond, hthird⟩ := hcolon
    refine ⟨?_, hfirst, hsecond, hthird⟩
    rw [urlOfSpecialPath_joined (noColon_kind hkind) hfirst hsecond hthird] at h
    cases hparts : urlOfParts kind first second third with
    | none =>
        rw [hparts] at h
        exact absurd h hne
    | some url' =>
        rw [hparts, Option.getD_some] at h
        rw [h]
  · rintro ⟨hparts, hfirst, hsecond, hthird⟩
    rw [urlOfSpecialPath_joined (noColon_kind hkind) hfirst hsecond hthird, hparts,
      Option.getD_some]

/-- The URL for parts is a URL. -/
theorem https_of_urlOfParts {kind first second third url : String}
    (h : urlOfParts kind first second third = some url) : "https:".toList <+: url.toList := by
  rw [urlOfParts] at h
  split at h
  · split at h
    · rw [← Option.some.inj h]
      simp
    · rw [← Option.some.inj h]
      simp
  · split at h
    · rw [← Option.some.inj h]
      simp
    · split at h
      · rw [← Option.some.inj h]
        simp
      · cases h

/-! ## URLs and their special paths -/

/-- The one colon is that of the scheme. -/
def OneColon (url : String) : Prop := url.toList.count ':' = 1

theorem GithubUrl.oneColon_iff {c : RepoCaptures} {url : String} (h : GithubUrl c url) :
    OneColon url ↔ NoColon c.repo ∧ NoColon c.path ∧ NoColon c.rev := by
  rw [OneColon, h.eq, noColon_iff, noColon_iff, noColon_iff]
  simp [List.count_append]
  omega

theorem HgUrl.oneColon_iff {c : RepoCaptures} {url : String} (h : HgUrl c url) :
    OneColon url ↔ NoColon c.repo ∧ NoColon c.path ∧ NoColon c.rev := by
  rw [OneColon, h.eq, noColon_iff, noColon_iff, noColon_iff]
  simp [List.count_append]
  omega

theorem S3Url.oneColon_iff {c : S3Captures} {url : String} (h : S3Url c '.' '.' '.' url) :
    OneColon url ↔ NoColon c.bucket ∧ NoColon c.digestAndPath := by
  rw [OneColon, h.eq, noColon_iff, noColon_iff]
  simp [List.count_append]

theorem GitilesUrl.oneColon_iff {c : RepoCaptures} {url : String} (h : GitilesUrl c url) :
    OneColon url ↔ NoColon c.repo ∧ NoColon c.path ∧ NoColon c.rev := by
  rw [OneColon, h.eq, noColon_iff, noColon_iff, noColon_iff]
  simp [List.count_append]
  omega

/-- The three patterns for downloads, in the order in which they are tried. -/
def IsGithubUrl (url : String) : Prop := ∃ c, GithubUrl c url

def IsHgUrl (url : String) : Prop := ∃ c, HgUrl c url

def IsS3Url (url : String) : Prop := ∃ c d₁ d₂ d₃, S3Url c d₁ d₂ d₃ url

/-- A text in one of the formats. -/
def InFormat (specialPath : String) : Prop :=
  ∃ kind first second third, specialPath = joined kind first second third ∧ NoColon first ∧
    NoColon second ∧ NoColon third ∧ (kind = "git" ∨ kind = "hg" ∨ kind = "s3" ∧ third = "")

/-- A URL whose special path leads back to it. -/
structure LeadsBack (url : String) : Prop where
  oneColon : IsGithubUrl url ∨ IsHgUrl url ∨ IsS3Url url → OneColon url
  /-- The reading with the longest bucket has dots where the pattern has them. -/
  dots : IsS3Url url → ¬ IsGithubUrl url → ¬ IsHgUrl url →
    ∃ c, S3Url c '.' '.' '.' url ∧ Longest c url
  noFormat : ¬ (IsGithubUrl url ∨ IsHgUrl url ∨ IsS3Url url) → ¬ InFormat url

theorem urlOfParts_isSome {kind first second third : String} :
    (urlOfParts kind first second third).isSome ↔
      kind = "git" ∨ kind = "hg" ∨ kind = "s3" ∧ third = "" := by
  rw [urlOfParts]
  split
  · next hkind =>
      refine iff_of_true ?_ (Or.inl hkind)
      split <;> rfl
  · next hgit =>
      split
      · next hkind => exact iff_of_true rfl (Or.inr (Or.inl hkind))
      · next hhg =>
          split
          · next hkind => exact iff_of_true rfl (Or.inr (Or.inr hkind))
          · next hs3 => exact iff_of_false (by simp) (by tauto)

/-- What is in no format is a URL. -/
theorem urlOfSpecialPath_eq_self (url : String) :
    urlOfSpecialPath url = url ↔ ¬ InFormat url := by
  constructor
  · rintro h ⟨kind, first, second, third, rfl, hfirst, hsecond, hthird, hkind⟩
    obtain ⟨url, hurl⟩ := Option.isSome_iff_exists.mp (urlOfParts_isSome.mpr hkind)
    have hkind' : kind = "git" ∨ kind = "hg" ∨ kind = "s3" := by tauto
    rw [urlOfSpecialPath_joined (noColon_kind hkind') hfirst hsecond hthird, hurl] at h
    exact joined_ne_url hkind' (https_of_urlOfParts hurl) h.symm
  · intro h
    rw [urlOfSpecialPath]
    split
    · next kind first second third hparts =>
        obtain ⟨heq, -, hfirst, hsecond, hthird⟩ := joined_of_split hparts
        cases hurl : urlOfParts kind first second third with
        | none => rfl
        | some url =>
            refine absurd ⟨kind, first, second, third, heq, hfirst, hsecond, hthird, ?_⟩ h
            rw [← urlOfParts_isSome, hurl]
            rfl
    · rfl

/-! ## One rule after the other -/

theorem GithubUrl.leadsBack_iff {c : RepoCaptures} {url : String} (h : GithubUrl c url) :
    urlOfSpecialPath ("git:github.com/" ++ c.repo ++ ":" ++ c.path ++ ":" ++ c.rev) = url ↔
      OneColon url := by
  have hjoined : "git:github.com/" ++ c.repo ++ ":" ++ c.path ++ ":" ++ c.rev
      = joined "git" ("github.com/" ++ c.repo) c.path c.rev := by
    rw [← String.toList_inj]
    simp [joined]
  have hurl : urlOfParts "git" ("github.com/" ++ c.repo) c.path c.rev = some url := by
    rw [urlOfParts, if_pos rfl, if_pos (by simp), h.eq, Option.some.injEq, ← String.toList_inj]
    simp
  have hrepo : NoColon ("github.com/" ++ c.repo) ↔ NoColon c.repo := by
    rw [NoColon, NoColon]
    simp
  rw [hjoined, joined_leadsBack_iff (Or.inl rfl) (https_of_urlOfParts hurl), hrepo,
    h.oneColon_iff]
  exact and_iff_right hurl

theorem HgUrl.leadsBack_iff {c : RepoCaptures} {url : String} (h : HgUrl c url) :
    urlOfSpecialPath ("hg:" ++ c.repo ++ ":" ++ c.path ++ ":" ++ c.rev) = url ↔ OneColon url := by
  have hjoined : "hg:" ++ c.repo ++ ":" ++ c.path ++ ":" ++ c.rev
      = joined "hg" c.repo c.path c.rev := by
    rw [← String.toList_inj]
    simp [joined]
  have hurl : urlOfParts "hg" c.repo c.path c.rev = some url := by
    rw [urlOfParts, if_neg (by decide), if_pos rfl, h.eq]
  rw [hjoined, joined_leadsBack_iff (Or.inr (Or.inl rfl)) (https_of_urlOfParts hurl),
    h.oneColon_iff]
  exact and_iff_right hurl

/-- Two readings with the longest bucket are one. -/
theorem Longest.unique {c c' : S3Captures} {d₁ d₂ d₃ d₁' d₂' d₃' : Char} {url : String}
    (h : S3Url c d₁ d₂ d₃ url) (hlongest : Longest c url) (h' : S3Url c' d₁' d₂' d₃' url)
    (hlongest' : Longest c' url) : S3Url c d₁' d₂' d₃' url := by
  have hlength : c.bucket.toList.length = c'.bucket.toList.length :=
    Nat.le_antisymm (hlongest' _ _ _ _ h) (hlongest _ _ _ _ h')
  obtain ⟨-, hrest₁⟩ := List.append_inj
    (List.append_cancel_left (h.letters.symm.trans h'.letters)) hlength
  obtain ⟨heq₁, hrest₂⟩ := List.cons.inj hrest₁
  obtain ⟨heq₂, hrest₃⟩ := List.cons.inj (List.append_cancel_left hrest₂)
  obtain ⟨heq₃, -⟩ := List.cons.inj (List.append_cancel_left hrest₃)
  rw [← heq₁, ← heq₂, ← heq₃]
  exact h

theorem S3Url.leadsBack_iff {c : S3Captures} {d₁ d₂ d₃ : Char} {url : String}
    (h : S3Url c d₁ d₂ d₃ url) (hlongest : Longest c url) :
    urlOfSpecialPath ("s3:" ++ c.bucket ++ ":" ++ c.digestAndPath ++ ":") = url ↔
      OneColon url ∧ ∃ c, S3Url c '.' '.' '.' url ∧ Longest c url := by
  have hjoined : "s3:" ++ c.bucket ++ ":" ++ c.digestAndPath ++ ":"
      = joined "s3" c.bucket c.digestAndPath "" := by
    rw [← String.toList_inj]
    simp [joined]
  have hhttps : "https:".toList <+: url.toList := by
    rw [h.eq]
    simp
  have hparts : urlOfParts "s3" c.bucket c.digestAndPath ""
      = some ("https://" ++ c.bucket ++ ".s3.amazonaws.com/" ++ c.digestAndPath) := by
    rw [urlOfParts, if_neg (by decide), if_neg (by decide), if_pos ⟨rfl, rfl⟩]
  -- the way back writes dots, whatever the pattern took for them
  have hdots : S3Url c '.' '.' '.' url ↔
      "https://" ++ c.bucket ++ ".s3.amazonaws.com/" ++ c.digestAndPath = url := by
    constructor
    · intro hreal
      rw [hreal.eq, ← String.toList_inj]
      simp
    · rintro rfl
      refine ⟨?_, h.bucket, by decide, h.path⟩
      rw [← String.toList_inj]
      simp
  rw [hjoined, joined_leadsBack_iff (Or.inr (Or.inr rfl)) hhttps, hparts, Option.some.injEq,
    ← hdots]
  constructor
  · rintro ⟨hreal, hbucket, hpath, -⟩
    exact ⟨hreal.oneColon_iff.mpr ⟨hbucket, hpath⟩, c, hreal, hlongest⟩
  · rintro ⟨hcolon, c', hreal', hlongest'⟩
    have hreal := Longest.unique h hlongest hreal' hlongest'
    obtain ⟨hbucket, hpath⟩ := hreal.oneColon_iff.mp hcolon
    refine ⟨hreal, hbucket, hpath, ?_⟩
    rw [noColon_iff]
    rfl

/-- A repository at GitHub shows at the front of the URL. -/
theorem GitilesUrl.github_iff {c : RepoCaptures} {url : String} (h : GitilesUrl c url) :
    "https://github.com/".toList <+: url.toList ↔ "github.com/".toList <+: c.repo.toList := by
  have hurl : url.toList = "https://".toList ++ (c.repo.toList ++ (".git/+/".toList
      ++ (c.rev.toList ++ '/' :: (c.path.toList ++ "?format=TEXT".toList)))) := by
    rw [h.eq]
    simp
  have hhost : "https://github.com/".toList = "https://".toList ++ "github.com/".toList := by rfl
  rw [hurl, hhost, List.prefix_append_right_inj]
  constructor
  · intro hprefix
    rcases List.prefix_or_prefix_of_prefix hprefix (List.prefix_append _ _) with hrepo | hrepo
    · exact hrepo
    · -- the host does not go on as the end of the repository does
      obtain ⟨rest, hrest⟩ := hrepo
      have hends : ∀ rest ∈ "github.com/".toList.tails, rest.take 2 <+: ".g".toList → rest = [] := by
        decide
      rw [← hrest, List.prefix_append_right_inj] at hprefix
      have htwo := List.IsPrefix.take hprefix 2
      rw [hends rest ((List.mem_tails _ _).mpr ⟨_, hrest⟩) htwo, List.append_nil] at hrest
      rw [hrest]
  · intro hprefix
    exact hprefix.trans (List.prefix_append _ _)

theorem GitilesUrl.leadsBack_iff {c : RepoCaptures} {url : String} (h : GitilesUrl c url) :
    urlOfSpecialPath ("git:" ++ c.repo ++ ":" ++ c.path ++ ":" ++ c.rev) = url ↔
      OneColon url ∧ ¬ "https://github.com/".toList <+: url.toList := by
  have hjoined : "git:" ++ c.repo ++ ":" ++ c.path ++ ":" ++ c.rev
      = joined "git" c.repo c.path c.rev := by
    rw [← String.toList_inj]
    simp [joined]
  have hhttps : "https:".toList <+: url.toList := by
    rw [h.eq]
    simp
  have hparts : urlOfParts "git" c.repo c.path c.rev = some url ↔
      ¬ "github.com/".toList <+: c.repo.toList := by
    rw [urlOfParts, if_pos rfl]
    by_cases hgithub : "github.com/".toList <+: c.repo.toList
    · rw [if_pos hgithub]
      refine iff_of_false ?_ (not_not_intro hgithub)
      obtain ⟨rest, hrest⟩ := hgithub
      intro heq
      have hletters := congrArg String.toList (Option.some.inj heq)
      rw [h.eq] at hletters
      simp [← hrest] at hletters
    · rw [if_neg hgithub]
      exact iff_of_true (by rw [h.eq]) hgithub
  rw [hjoined, joined_leadsBack_iff (Or.inl rfl) hhttps, hparts, h.oneColon_iff, h.github_iff]
  exact and_comm

section Rules

variable [Crates]

/-- The special path of a URL leads back to it if and only if there is no colon too many
    in it, and no letter that the pattern for S3 took for a dot. -/
theorem urlToSpecialPath_leadsBack_iff (hpatterns : HasPatterns) (url : String) :
    urlOfSpecialPath (urlToSpecialPath url) = url ↔ LeadsBack url := by
  obtain ⟨hgithub, hnotGithub⟩ :=
    @repoCaptures_spec url _ _ (fun _ => github_sound) (fun _ => github_complete)
  obtain ⟨hhg, hnotHg⟩ :=
    @repoCaptures_spec url _ _ (fun _ => hg_sound) (fun _ => hg_complete)
  obtain ⟨hs3, hnotS3⟩ := @s3Captures_spec url
  rw [urlToSpecialPath, hpatterns.github, hpatterns.hg, hpatterns.s3]
  cases hgithubCaptures : repoCaptures githubPattern url with
  | some c =>
      have hshape := hgithub c hgithubCaptures
      refine hshape.leadsBack_iff.trans ⟨fun h => ⟨fun _ => h, ?_, ?_⟩, fun h => ?_⟩
      · exact fun _ hnot => absurd ⟨c, hshape⟩ hnot
      · exact fun hnot => absurd (Or.inl ⟨c, hshape⟩) hnot
      · exact h.oneColon (Or.inl ⟨c, hshape⟩)
  | none =>
      have hno := hnotGithub hgithubCaptures
      cases hhgCaptures : repoCaptures hgPattern url with
      | some c =>
          have hshape := hhg c hhgCaptures
          refine hshape.leadsBack_iff.trans ⟨fun h => ⟨fun _ => h, ?_, ?_⟩, fun h => ?_⟩
          · exact fun _ _ hnot => absurd ⟨c, hshape⟩ hnot
          · exact fun hnot => absurd (Or.inr (Or.inl ⟨c, hshape⟩)) hnot
          · exact h.oneColon (Or.inr (Or.inl ⟨c, hshape⟩))
      | none =>
          have hno' := hnotHg hhgCaptures
          cases hs3Captures : s3Captures url with
          | some c =>
              obtain ⟨d₁, d₂, d₃, hshape, hlongest⟩ := hs3 c hs3Captures
              have his : IsS3Url url := ⟨c, d₁, d₂, d₃, hshape⟩
              refine (hshape.leadsBack_iff hlongest).trans ⟨?_, ?_⟩
              · rintro ⟨hcolon, hdots⟩
                exact ⟨fun _ => hcolon, fun _ _ _ => hdots,
                  fun hnot => absurd (Or.inr (Or.inr his)) hnot⟩
              · intro h
                exact ⟨h.oneColon (Or.inr (Or.inr his)), h.dots his hno hno'⟩
          | none =>
              have hno'' := hnotS3 hs3Captures
              have hnone : ¬ (IsGithubUrl url ∨ IsHgUrl url ∨ IsS3Url url) := by
                rintro (h | h | h)
                · exact hno h
                · exact hno' h
                · exact hno'' h
              -- the URL stands as it is, and must not look like one of the formats
              refine (urlOfSpecialPath_eq_self url).trans ⟨?_, ?_⟩
              · intro h
                exact ⟨fun his => absurd his hnone, fun his => absurd his hno'', fun _ => h⟩
              · intro h
                exact h.noFormat hnone

/-- What the rule for gitiles takes. -/
structure IsGitilesDownload (m : SrcSrvPathMapper) (map : String → Option String) (url : String) :
    Prop where
  command : m.commandIsFileDownload = true
  function : map "var5" = some "base64.b64decode"
  address : map "var4" = some url
  shape : ∃ c, GitilesUrl c url

theorem gitilesToSpecialPath_spec (hpatterns : HasPatterns) (m : SrcSrvPathMapper)
    (map : String → Option String) :
    (∀ specialPath, m.gitilesToSpecialPath map = some specialPath →
      ∃ url c, IsGitilesDownload m map url ∧ GitilesUrl c url ∧
        specialPath = "git:" ++ c.repo ++ ":" ++ c.path ++ ":" ++ c.rev) ∧
      (m.gitilesToSpecialPath map = none → ¬ ∃ url, IsGitilesDownload m map url) := by
  rw [gitilesToSpecialPath]
  cases hcommand : m.commandIsFileDownload with
  | false =>
      refine ⟨?_, ?_⟩
      · intro specialPath h
        cases h
      · rintro - ⟨url, h⟩
        rw [h.command] at hcommand
        cases hcommand
  | true =>
      by_cases hfunction : map "var5" = some "base64.b64decode"
      · rw [if_neg (by simp), if_neg (not_not_intro hfunction)]
        cases hurl : map "var4" with
        | none =>
            refine ⟨?_, ?_⟩
            · intro specialPath h
              cases h
            · rintro - ⟨url, h⟩
              rw [h.address] at hurl
              cases hurl
        | some url =>
            obtain ⟨hsound, hcomplete⟩ :=
              @repoCaptures_spec url _ _ (fun _ => gitiles_sound) (fun _ => gitiles_complete)
            rw [Option.bind_eq_bind, Option.bind_some, hpatterns.gitiles]
            cases hcaptures : repoCaptures gitilesPattern url with
            | none =>
                refine ⟨?_, ?_⟩
                · intro specialPath h
                  cases h
                · rintro - ⟨url', h⟩
                  rw [h.address, Option.some.injEq] at hurl
                  rw [hurl] at h
                  exact hcomplete hcaptures h.shape
            | some c =>
                have hshape := hsound c hcaptures
                refine ⟨?_, ?_⟩
                · intro specialPath h
                  exact ⟨url, c, ⟨hcommand, hfunction, hurl, c, hshape⟩, hshape,
                    (Option.some.inj h).symm⟩
                · intro h
                  cases h
      · rw [if_neg (by simp), if_pos hfunction]
        refine ⟨?_, ?_⟩
        · intro specialPath h
          cases h
        · rintro - ⟨url, h⟩
          exact hfunction h.function

/-! ## Through the mappers -/

theorem specialPath_of_download (m : SrcSrvPathMapper) {rawPath url : String}
    {map : String → Option String}
    (h : m.srcsrvStream.sourceAndRawVarValuesForPath rawPath "C:\\Dummy"
      = some (.download url, map)) :
    m.specialPath rawPath = some (urlToSpecialPath url) := by
  unfold specialPath
  rw [h]

theorem specialPath_of_command (m : SrcSrvPathMapper) {rawPath : String}
    {map : String → Option String}
    (h : m.srcsrvStream.sourceAndRawVarValuesForPath rawPath "C:\\Dummy"
      = some (.executeCommand, map)) :
    m.specialPath rawPath = m.gitilesToSpecialPath map := by
  unfold specialPath
  rw [h]

variable [Platform]

/-- The mapped path of a file, whatever was mapped before. -/
theorem mappedPath_of_specialPath (srcsrvStream : SrcSrvStream) (basePath : BasePath)
    (before : List String) (rawPath : String) :
    (((PathMapper.newWithMaybeExtraMapper basePath (some (new srcsrvStream))).mapPaths
        before).mapPath rawPath).1.mappedPath
      = (((new srcsrvStream).specialPath rawPath).or (PathMapper.permalink rawPath)).getD rawPath := by
  have hnew := PathMapper.maps_new basePath (some (new srcsrvStream)) (fun e he => by
    obtain rfl := Option.some.inj he
    exact memoOf_new srcsrvStream)
  rw [(PathMapper.mapPath_of_maps (answersLike srcsrvStream)
    (PathMapper.maps_mapPaths (answersLike srcsrvStream) hnew before) rawPath).1,
    PathMapper.resolveWith_mappedPath, PathMapper.permalink_eq]
  rfl

/-- **DOWNLOADED FILES**: whatever files were mapped before, the mapped path of a file that
    the source server downloads leads back to its URL if and only if there is no colon
    too many in it, and no letter that the pattern for S3 took for a dot. -/
theorem mapPath_download_leadsBack_iff (hpatterns : HasPatterns) (srcsrvStream : SrcSrvStream)
    (basePath : BasePath) (before : List String) (rawPath url : String)
    (map : String → Option String)
    (hdownload : srcsrvStream.sourceAndRawVarValuesForPath rawPath "C:\\Dummy"
      = some (.download url, map)) :
    urlOfSpecialPath (((PathMapper.newWithMaybeExtraMapper basePath
        (some (new srcsrvStream))).mapPaths before).mapPath rawPath).1.mappedPath = url ↔
      LeadsBack url := by
  rw [mappedPath_of_specialPath, specialPath_of_download (new srcsrvStream) hdownload, Option.some_or, Option.getD_some]
  exact urlToSpecialPath_leadsBack_iff hpatterns url

/-- **FILES BEHIND A COMMAND**: the command is never run.  Where it is the known one for
    gitiles, the mapped path leads back to the URL if and only if there is no colon too
    many in it and the host is not GitHub; otherwise the server is not asked at all. -/
theorem mapPath_command_leadsBack_iff (hpatterns : HasPatterns) (srcsrvStream : SrcSrvStream)
    (basePath : BasePath) (before : List String) (rawPath : String)
    (map : String → Option String)
    (hcommand : srcsrvStream.sourceAndRawVarValuesForPath rawPath "C:\\Dummy"
      = some (.executeCommand, map)) :
    (∀ url, IsGitilesDownload (new srcsrvStream) map url →
      (urlOfSpecialPath (((PathMapper.newWithMaybeExtraMapper basePath
          (some (new srcsrvStream))).mapPaths before).mapPath rawPath).1.mappedPath = url ↔
        OneColon url ∧ ¬ "https://github.com/".toList <+: url.toList)) ∧
    ((¬ ∃ url, IsGitilesDownload (new srcsrvStream) map url) →
      (((PathMapper.newWithMaybeExtraMapper basePath (some (new srcsrvStream))).mapPaths
          before).mapPath rawPath).1.mappedPath = (PathMapper.permalink rawPath).getD rawPath) := by
  obtain ⟨hsound, hcomplete⟩ := gitilesToSpecialPath_spec hpatterns (new srcsrvStream) map
  rw [mappedPath_of_specialPath, specialPath_of_command (new srcsrvStream) hcommand]
  cases hpath : (new srcsrvStream).gitilesToSpecialPath map with
  | none =>
      refine ⟨fun url h => absurd ⟨url, h⟩ (hcomplete hpath), ?_⟩
      intro _
      rw [Option.none_or]
  | some specialPath =>
      obtain ⟨url, c, hdownload, hshape, rfl⟩ := hsound specialPath hpath
      refine ⟨?_, fun hno => absurd ⟨url, hdownload⟩ hno⟩
      intro url' hdownload'
      obtain rfl := Option.some.inj (hdownload.address.symm.trans hdownload'.address)
      rw [Option.some_or, Option.getD_some]
      exact hshape.leadsBack_iff

end Rules

/-! ## A stream with one file of each kind -/

section Samples

/-- The regex crate, as far as these patterns go. -/
abbrev patternCrates : Crates :=
  { Crates.nothing with
    githubRegex := repoCaptures githubPattern
    hgRegex := repoCaptures hgPattern
    s3Regex := s3Captures
    gitilesRegex := repoCaptures gitilesPattern }

/-- A file from a Mercurial server, and one behind the command for gitiles. -/
def twoFilesStream : SrcSrvStream where
  getRawVar name :=
    if name = "SRCSRVCMD" then some "%SRC_EXTRACT_CMD%"
    else if name = "SRC_EXTRACT_CMD" then some "cmd /c \"mkdir \"%SRC_EXTRACT_TARGET_DIR%\" & python3 -c \"import urllib.request, base64;url = \\\"%var4%\\\";u = urllib.request.urlopen(url);open(r\\\"%SRC_EXTRACT_TARGET%\\\", \\\"wb\\\").write(%var5%(u.read()))\""
    else none
  sourceAndRawVarValuesForPath path _ :=
    if path = "c:\\src\\a.cpp" then
      some (.download "https://hg.mozilla.org/central/raw-file/1706d4/a.cpp", fun _ => none)
    else some (.executeCommand, fun name =>
      if name = "var4" then some "https://pdfium.googlesource.com/pdfium.git/+/dab1/b.cpp?format=TEXT"
      else if name = "var5" then some "base64.b64decode" else none)

theorem hasPatterns_patternCrates : @HasPatterns patternCrates :=
  @HasPatterns.mk patternCrates (fun _ => rfl) (fun _ => rfl) (fun _ => rfl) (fun _ => rfl)

theorem hgUrl_twoFilesStream :
    HgUrl ⟨"hg.mozilla.org/central", "1706d4", "a.cpp"⟩
      "https://hg.mozilla.org/central/raw-file/1706d4/a.cpp" where
  eq := rfl
  repo := ⟨"mozilla.org/central", rfl, by simp [OneLine]⟩
  rev := by simp [isHexDigit]
  path := by simp [OneLine]

theorem leadsBack_twoFilesStream :
    LeadsBack "https://hg.mozilla.org/central/raw-file/1706d4/a.cpp" where
  oneColon _ := hgUrl_twoFilesStream.oneColon_iff.mpr
    ⟨by simp [NoColon], by simp [NoColon], by simp [NoColon]⟩
  dots _ _ hnotHg := absurd ⟨_, hgUrl_twoFilesStream⟩ hnotHg
  noFormat hno := absurd (Or.inr (Or.inl ⟨_, hgUrl_twoFilesStream⟩)) hno

theorem mapPath_download_leadsBack_iff_mercurial :
    let _ : Crates := patternCrates
    let _ : Platform := unix
    urlOfSpecialPath (((PathMapper.newWithMaybeExtraMapper .noLocalSourceFileAccess
        (some (new twoFilesStream))).mapPaths ["c:\\src\\b.cpp"]).mapPath
          "c:\\src\\a.cpp").1.mappedPath
        = "https://hg.mozilla.org/central/raw-file/1706d4/a.cpp" := by
  intro crates platform
  refine (mapPath_download_leadsBack_iff hasPatterns_patternCrates twoFilesStream
    .noLocalSourceFileAccess ["c:\\src\\b.cpp"] "c:\\src\\a.cpp" _ (fun _ => none) rfl).mpr ?_
  exact leadsBack_twoFilesStream

theorem gitilesUrl_twoFilesStream :
    GitilesUrl ⟨"pdfium.googlesource.com/pdfium", "dab1", "b.cpp"⟩
      "https://pdfium.googlesource.com/pdfium.git/+/dab1/b.cpp?format=TEXT" where
  eq := rfl
  repo := by simp [OneLine]
  rev := by simp [Segment]
  path := by simp [OneLine]

theorem isGitilesDownload_twoFilesStream :
    IsGitilesDownload (new twoFilesStream)
      (fun name =>
        if name = "var4" then
          some "https://pdfium.googlesource.com/pdfium.git/+/dab1/b.cpp?format=TEXT"
        else if name = "var5" then some "base64.b64decode" else none)
      "https://pdfium.googlesource.com/pdfium.git/+/dab1/b.cpp?format=TEXT" where
  command := by simp [new, matchesChromeGitilesWorkaround, twoFilesStream]
  function := rfl
  address := rfl
  shape := ⟨_, gitilesUrl_twoFilesStream⟩

/-- It leads back, as far as the host and the colons go. -/
theorem mapPath_command_leadsBack_iff_gitiles :
    let _ : Crates := patternCrates
    let _ : Platform := unix
    urlOfSpecialPath (((PathMapper.newWithMaybeExtraMapper .noLocalSourceFileAccess
        (some (new twoFilesStream))).mapPaths ["c:\\src\\a.cpp"]).mapPath
          "c:\\src\\b.cpp").1.mappedPath
        = "https://pdfium.googlesource.com/pdfium.git/+/dab1/b.cpp?format=TEXT" := by
  intro crates platform
  refine ((mapPath_command_leadsBack_iff hasPatterns_patternCrates twoFilesStream
    .noLocalSourceFileAccess ["c:\\src\\a.cpp"] "c:\\src\\b.cpp" _ rfl).1 _
    isGitilesDownload_twoFilesStream).mpr ⟨?_, ?_⟩
  · exact gitilesUrl_twoFilesStream.oneColon_iff.mpr
      ⟨by simp [NoColon], by simp [NoColon], by simp [NoColon]⟩
  · rw [gitilesUrl_twoFilesStream.github_iff]
    simp

end Samples

end ProfilerGetSymbols.Windows.SrcSrvPathMapper
