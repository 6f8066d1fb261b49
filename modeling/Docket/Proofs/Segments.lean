import Docket.Proofs.Paths
import Mathlib.Data.List.DropRight

/-!
The URL of a document. It is the base URL, without slashes at the end, and two segments of
unreserved characters and escapes that stand for index and type. So no text in them can separate the
parts of a URL, and a request goes where the base URL says, to a target that is longer by these
segments.
-/

set_option autoImplicit false
set_option relaxedAutoImplicit false

namespace Docket

namespace Cut

private theorem trailingSlashes_append (s : String) : ∃ slashes,
    s = trailingSlashes s ++ String.ofList (List.replicate slashes '/') ∧
      (trailingSlashes s).toList.getLast? ≠ some '/' := by
  have hkept : (trailingSlashes s).toList = s.toList.rdropWhile (· = '/') :=
    String.toList_ofList
  refine ⟨(s.toList.rtakeWhile (· = '/')).length, ?_, ?_⟩
  · have hslashes : s.toList.rtakeWhile (· = '/') =
        List.replicate (s.toList.rtakeWhile (· = '/')).length '/' := by
      refine List.eq_replicate_of_mem fun c hc => ?_
      simpa using List.mem_rtakeWhile_imp hc
    rw [← String.toList_inj, String.toList_append, String.toList_ofList, hkept, ← hslashes,
      List.rdropWhile_append_rtakeWhile]
  · intro hlast
    rw [hkept] at hlast
    have hne : s.toList.rdropWhile (· = '/') ≠ [] := by
      rintro hnil
      simp [hnil] at hlast
    rw [List.getLast?_eq_some_getLast hne, Option.some.injEq] at hlast
    have hother := List.rdropWhile_last_not _ _ hne
    simp [hlast] at hother

end Cut

namespace Url

def isEnd (c : Char) : Bool := c == '/' || c == '?' || c == '#'

/-- Characters that may stand in a path and in a query, and end neither. -/
def Plain (c : Char) : Prop := isPathChar c = true ∧ isQueryChar c = true ∧ c ≠ '?' ∧ c ≠ '#'

private theorem parse?_eq {text : String} {authority tail : List Char}
    (htext : text.toList = "http://".toList ++ (authority ++ tail))
    (hauthority : ∀ c ∈ authority, isEnd c = false) (htail : ∀ c ∈ tail.head?, isEnd c = true) :
    parse? text = if text.utf8ByteSize ≤ maxBytes then
        (targetOf? tail).bind fun target =>
          if !authority.isEmpty && isAuthority 0 false false false authority then
            some ⟨String.ofList (hostOf authority), portOf authority, String.ofList target⟩
          else none
      else none := by
  have htake : (authority ++ tail).takeWhile (fun c => !isEnd c) = authority := by
    rw [List.takeWhile_append_of_pos (by simpa using hauthority)]
    cases tail with
    | nil => simp
    | cons c rest => simp [htail c rfl]
  have hdrop : (authority ++ tail).dropWhile (fun c => !isEnd c) = tail := by
    rw [List.dropWhile_append_of_pos (by simpa using hauthority)]
    cases tail with
    | nil => simp
    | cons c rest => simp [htail c rfl]
  have hscheme : behindScheme? text.toList = some (authority ++ tail) := by
    rw [htext]
    rfl
  rw [parse?]
  split
  · simp only [isEnd] at htake hdrop
    simp only [hscheme, Option.bind_eq_bind, Option.bind_some, htake, hdrop]
    rfl
  · rfl

section Targets

variable {path query : List Char}

private theorem targetOf?_path (hpath : ∀ c ∈ path, c ≠ '?' ∧ c ≠ '#') (hne : path ≠ []) :
    targetOf? path = if path.all isPathChar then some path else none := by
  have hmarks : ∀ c ∈ path, (c != '?' && c != '#') = true := by simpa using hpath
  have htake : path.takeWhile (fun c => c != '?' && c != '#') = path :=
    List.takeWhile_eq_self_iff.mpr hmarks
  have hdrop : path.dropWhile (fun c => c != '?' && c != '#') = [] :=
    List.dropWhile_eq_nil_iff.mpr hmarks
  simp [targetOf?, htake, hdrop, hne]

private theorem targetOf?_query (hpath : ∀ c ∈ path, c ≠ '?' ∧ c ≠ '#') (hquery : '#' ∉ query) :
    targetOf? (path ++ '?' :: query) =
      if path.all isPathChar && ('?' :: query).all isQueryChar then some (path ++ '?' :: query)
      else none := by
  have hmarks : ∀ c ∈ path, (c != '?' && c != '#') = true := by simpa using hpath
  have htake : (path ++ '?' :: query).takeWhile (fun c => c != '?' && c != '#') = path := by
    simp [List.takeWhile_append_of_pos hmarks]
  have hdrop : (path ++ '?' :: query).dropWhile (fun c => c != '?' && c != '#') = '?' :: query := by
    simp [List.dropWhile_append_of_pos hmarks]
  have hwhole : query.takeWhile (· != '#') = query := by
    rw [List.takeWhile_eq_self_iff]
    intro c hc
    simpa using ne_of_mem_of_not_mem hc hquery
  simp [targetOf?, htake, hdrop, hwhole]

/-- Without a fragment the target is all that follows the authority, and so it is with more plain
characters at the end. -/
theorem targetOf?_append {cs target seg : List Char} (hfragment : '#' ∉ cs) (hne : cs ≠ [])
    (h : targetOf? cs = some target) (hseg : ∀ c ∈ seg, Plain c) :
    target = cs ∧ targetOf? (cs ++ seg) = some (cs ++ seg) := by
  have hsegPath : seg.all isPathChar = true := List.all_eq_true.mpr fun c hc => (hseg c hc).1
  by_cases hquestion : '?' ∈ cs
  · obtain ⟨path, query, rfl, hpath⟩ := List.eq_append_cons_of_mem hquestion
    have hpathFragment : '#' ∉ path := fun hmem => hfragment (by simp [hmem])
    have hmarks : ∀ c ∈ path, c ≠ '?' ∧ c ≠ '#' := fun c hc =>
      ⟨ne_of_mem_of_not_mem hc hpath, ne_of_mem_of_not_mem hc hpathFragment⟩
    have hquery : '#' ∉ query := fun hmem => hfragment (by simp [hmem])
    have hlonger : '#' ∉ query ++ seg := fun hmem => by
      rcases List.mem_append.mp hmem with hmem | hmem
      · exact hquery hmem
      · exact (hseg _ hmem).2.2.2 rfl
    have hsegQuery : seg.all isQueryChar = true := List.all_eq_true.mpr fun c hc => (hseg c hc).2.1
    rw [targetOf?_query hmarks hquery] at h
    split at h
    · rename_i hchars
      rw [List.append_assoc, List.cons_append, targetOf?_query hmarks hlonger, if_pos]
      · exact ⟨(Option.some.inj h).symm, rfl⟩
      · rw [← List.cons_append, List.all_append, hsegQuery, Bool.and_true]
        exact hchars
    · simp at h
  · have hmarks : ∀ c ∈ cs, c ≠ '?' ∧ c ≠ '#' := fun c hc =>
      ⟨ne_of_mem_of_not_mem hc hquestion, ne_of_mem_of_not_mem hc hfragment⟩
    have hlonger : ∀ c ∈ cs ++ seg, c ≠ '?' ∧ c ≠ '#' := fun c hc =>
      (List.mem_append.mp hc).elim (hmarks c) fun hmem => (hseg c hmem).2.2
    rw [targetOf?_path hmarks hne] at h
    split at h
    · rename_i hchars
      rw [targetOf?_path hlonger (by simp [hne]), if_pos]
      · exact ⟨(Option.some.inj h).symm, rfl⟩
      · rw [List.all_append, hsegPath, hchars, Bool.and_true]
    · simp at h

end Targets

theorem eq_of_behindScheme? {cs rest : List Char} (h : behindScheme? cs = some rest) :
    cs = "http://".toList ++ rest := by
  unfold behindScheme? at h
  split at h
  · rw [Option.some.inj h]
    rfl
  · simp at h

private theorem exists_parts {text : String} {u : Url} (h : parse? text = some u) :
    ∃ authority tail, text.toList = "http://".toList ++ (authority ++ tail) ∧
      (∀ c ∈ authority, isEnd c = false) ∧ ∀ c ∈ tail.head?, isEnd c = true := by
  cases hscheme : behindScheme? text.toList with
  | none =>
    rw [parse?, hscheme] at h
    split at h <;> simp at h
  | some rest =>
    refine ⟨rest.takeWhile fun c => !isEnd c, rest.dropWhile fun c => !isEnd c, ?_, ?_, ?_⟩
    · rw [List.takeWhile_append_dropWhile, eq_of_behindScheme? hscheme]
    · intro c hc
      simpa using List.mem_takeWhile_imp hc
    · intro c hc
      have hstops := List.head?_dropWhile_not (fun c => !isEnd c) rest
      simpa [Option.mem_def.mp hc] using hstops

private theorem parse?_append {start seg : String} {u : Url}
    (hslash : start.toList.getLast? = some '/')
    (hfragment : '#' ∉ start.toList) (h : parse? start = some u)
    (hseg : ∀ c ∈ seg.toList, Plain c) :
    parse? (start ++ seg) = if (start ++ seg).utf8ByteSize ≤ maxBytes then
        some ⟨u.host, u.port, u.target ++ seg⟩
      else none := by
  obtain ⟨authority, tail, hstart, hauthority, htail⟩ := exists_parts h
  have hread := (parse?_eq hstart hauthority htail).symm.trans h
  split at hread
  · obtain ⟨target, htarget, hvalue⟩ := Option.bind_eq_some_iff.mp hread
    split at hvalue
    · rename_i hvalid
      have htailne : tail ≠ [] := by
        rintro rfl
        obtain ⟨hne, -⟩ : authority ≠ [] ∧ _ := by simpa using hvalid
        have hlast : '/' ∈ authority := by
          apply List.mem_of_getLast?
          rwa [hstart, List.append_nil, List.getLast?_append_of_ne_nil _ hne] at hslash
        simpa [isEnd] using hauthority '/' hlast
      have htailFragment : '#' ∉ tail := fun hmem => hfragment (by simp [hstart, hmem])
      obtain ⟨rfl, hlonger⟩ := targetOf?_append htailFragment htailne htarget hseg
      have hwhole : (start ++ seg).toList =
          "http://".toList ++ (authority ++ (target ++ seg.toList)) := by
        rw [String.toList_append, hstart]
        simp only [List.append_assoc]
      have hhead : ∀ c ∈ (target ++ seg.toList).head?, isEnd c = true := by
        rwa [List.head?_append_of_ne_nil _ htailne]
      rw [parse?_eq hwhole hauthority hhead, hlonger, Option.bind_some, if_pos hvalid,
        ← Option.some.inj hvalue, String.ofList_append, String.ofList_toList]
    · simp at hvalue
  · simp at hread

private theorem plain_of_isUnreserved {c : Char} (hc : Percent.isUnreserved c = true) :
    Plain c := by
  have hvisible : 0x21 ≤ c.toNat := by
    have hleast := UInt32.le_iff_toNat_le.mp (Percent.le_of_isUnreserved hc)
    exact Nat.le_trans (by decide) hleast
  have hother : ∀ d, Percent.isUnreserved d = false → c ≠ d := by
    rintro d hd rfl
    simp [hc] at hd
  have hmarks : ∀ cs : List Char,
      (cs.all fun d => !Percent.isUnreserved d) = true → cs.contains c = false := by
    intro cs hcs
    rw [List.contains_eq_mem, decide_eq_false_iff_not]
    intro hmem
    exact hother c (by simpa using List.all_eq_true.mp hcs c hmem) rfl
  have hpath := hmarks "#<>?\x60".toList (by decide)
  have hquery := hmarks "\"#<>".toList (by decide)
  refine ⟨?_, ?_, hother '?' (by decide), hother '#' (by decide)⟩
  · simp only [isPathChar, hvisible, hpath, decide_true, Bool.not_false, Bool.and_self]
  · simp only [isQueryChar, hvisible, hquery, decide_true, Bool.not_false, Bool.and_self]

private theorem plain_of_isSegment {segment text : String} (h : Percent.IsSegment segment text) :
    ∀ c ∈ segment.toList, Plain c := by
  intro c hc
  rcases h.encoded.isUnreserved_of_mem hc with hunreserved | rfl
  · exact plain_of_isUnreserved hunreserved
  · exact ⟨by decide, by decide, by decide, by decide⟩

end Url

namespace HttpStore

section Documents

variable {h : HttpStore} {index docType other otherType : String}

private theorem url_documentPath (hindex : index ≠ "") : h.url (documentPath index docType) =
    h.base ++ "/" ++ (Percent.encode index ++ "/" ++ Percent.encode docType) := by
  rw [url, documentPath, leadingSlashes_segments hindex]

private theorem index_http_snd (d : Record) (w : Wire) :
    ((Engine.http h).index index docType d w).2 =
    (w.request h.hosts (h.url (documentPath index docType)) .post
      (some ⟨jsonType, Json.text (.object d)⟩)).2 := rfl

theorem eq_of_url_documentPath (hindex : index ≠ "")
    (hsame : h.url (documentPath other otherType) = h.url (documentPath index docType)) :
    other = index ∧ otherType = docType := by
  have hpaths := (leadingSlashes_documentPath_eq_iff hindex (slash_not_mem_encode otherType)).mp
    (url_inj.mp hsame.symm)
  exact ⟨hpaths.1.symm, (Percent.encode_injective hpaths.2).symm⟩

private theorem splitOn_segments {root first second : String}
    (hfirst : Percent.IsSegment first index) (hsecond : Percent.IsSegment second docType) :
    (root ++ "/" ++ (first ++ "/" ++ second)).toList.splitOn '/' =
      root.toList.splitOn '/' ++ [first.toList, second.toList] := by
  have hno : ∀ {segment text : String}, Percent.IsSegment segment text → '/' ∉ segment.toList :=
    fun hsegment => hsegment.encoded.not_mem (by decide) (by decide)
  have hchars : (root ++ "/" ++ (first ++ "/" ++ second)).toList =
      root.toList ++ '/' :: (first.toList ++ '/' :: second.toList) := by
    simp
  rw [hchars, List.splitOn_append_cons_self, List.splitOn_append_cons_self,
    List.splitOn_eq_singleton (hno hfirst), List.splitOn_eq_singleton (hno hsecond)]
  rfl

private theorem plain_of_mem_segments {first second : String}
    (hfirst : Percent.IsSegment first index) (hsecond : Percent.IsSegment second docType) :
    ∀ c ∈ (first ++ "/" ++ second).toList, Url.Plain c := by
  intro c hc
  simp only [String.toList_append, List.mem_append] at hc
  rcases hc with (hc | hc) | hc
  · exact Url.plain_of_isSegment hfirst c hc
  · obtain rfl : c = '/' := by simpa using hc
    exact ⟨by decide, by decide, by decide, by decide⟩
  · exact Url.plain_of_isSegment hsecond c hc

/-- The URL of a document is the base URL, without slashes at the end, with two segments behind it,
which stand for index and type. Between slashes it has two parts more; no question mark and no hash
is added, and unless the base URL has a fragment, a request goes where the base URL says, to a
target that is longer by the segments. Documents of another index or type have another URL. -/
theorem document_url_segments (base : String) (hosts : Hosts) (index docType : String)
    (hindex : index ≠ "") (hdocType : docType ≠ "") :
    let h := HttpStore.ofBase base hosts
    let url := h.url (documentPath index docType)
    (∀ d w, ((Engine.http h).index index docType d w).2 =
      (w.request hosts url .post (some ⟨jsonType, Json.text (.object d)⟩)).2) ∧
    (∃ root slashes first second, base = root ++ String.ofList (List.replicate slashes '/') ∧
      root.toList.getLast? ≠ some '/' ∧ url = root ++ "/" ++ (first ++ "/" ++ second) ∧
      Percent.IsSegment first index ∧ Percent.IsSegment second docType ∧
      url.toList.splitOn '/' = root.toList.splitOn '/' ++ [first.toList, second.toList] ∧
      (∀ c, c = '?' ∨ c = '#' → url.toList.count c = root.toList.count c) ∧
      ∀ u, Url.parse? (root ++ "/") = some u → '#' ∉ root.toList → Url.parse? url =
        if url.utf8ByteSize ≤ Url.maxBytes then
          some ⟨u.host, u.port, u.target ++ (first ++ "/" ++ second)⟩
        else none) ∧
    ∀ other otherType, h.url (documentPath other otherType) = url →
      other = index ∧ otherType = docType := by
  intro h url
  refine ⟨index_http_snd, ?_, fun other otherType => eq_of_url_documentPath hindex⟩
  have hfirst := Percent.isSegment_encode hindex
  have hsecond := Percent.isSegment_encode hdocType
  have hplain := plain_of_mem_segments hfirst hsecond
  have hurl : url = h.base ++ "/" ++ (Percent.encode index ++ "/" ++ Percent.encode docType) :=
    url_documentPath hindex
  obtain ⟨slashes, hbase, hroot⟩ := Cut.trailingSlashes_append base
  refine ⟨h.base, slashes, Percent.encode index, Percent.encode docType, hbase, hroot, hurl,
    hfirst, hsecond, ?_, ?_, ?_⟩
  · rw [hurl, splitOn_segments hfirst hsecond]
  · rintro c hc
    have hsegments : c ∉ (Percent.encode index ++ "/" ++ Percent.encode docType).toList := by
      intro hmem
      obtain ⟨-, -, hquestion, hhash⟩ := hplain c hmem
      exact hc.elim hquestion hhash
    have hslash : c ∉ "/".toList := by
      rcases hc with rfl | rfl <;> decide
    rw [hurl, String.toList_append, String.toList_append, List.count_append, List.count_append,
      List.count_eq_zero_of_not_mem hslash, List.count_eq_zero_of_not_mem hsegments,
      Nat.add_zero]
  · intro u hu hfragment
    rw [hurl]
    apply Url.parse?_append _ _ hu hplain
    · simp
    · simpa using hfragment

theorem document_url_segments_slash :
    let h := HttpStore.ofBase "http://[::1]:9200//" ⟨[]⟩
    "a/b" ≠ "" ∧ "c?x" ≠ "" ∧
      h.url (documentPath "a/b" "c?x") = "http://[::1]:9200/a%2Fb/c%3Fx" ∧
      (h.url (documentPath "a/b" "c?x")).toList.count '?' = 0 ∧
      h.url (documentPath "a" "b/c?x") ≠ h.url (documentPath "a/b" "c?x") := by
  intro h
  have hindex : "a/b" ≠ "" := by decide
  have hdocType : "c?x" ≠ "" := by decide
  obtain ⟨-, ⟨root, slashes, first, second, hbase, -, -, -, -, -, hcount, -⟩, hother⟩ :=
    document_url_segments "http://[::1]:9200//" ⟨[]⟩ "a/b" "c?x" hindex hdocType
  refine ⟨hindex, hdocType, by decide, ?_, ?_⟩
  · have hroot : '?' ∉ root.toList := by
      intro hmem
      have hbaseMem : '?' ∈ "http://[::1]:9200//".toList := by
        rw [hbase, String.toList_append]
        exact List.mem_append_left _ hmem
      exact absurd hbaseMem (by decide)
    rw [hcount '?' (.inl rfl), List.count_eq_zero_of_not_mem hroot]
  · intro hsame
    obtain ⟨hsplit, -⟩ := hother "a" "b/c?x" hsame
    exact absurd hsplit (by decide)

end Documents

end HttpStore

end Docket
