import Restyle.File.Path

/-! # Paths by their parts

What lies above a path, what a name in it is and what its normal form is can be told from its parts.
So two texts that are the same path agree in all of this.
-/
namespace Restyle.Path

/-! ### Pieces -/

theorem pieces_slash (cs : List Char) : pieces ('/' :: cs) = [] :: pieces cs := by
  rw [pieces, if_pos rfl]

theorem pieces_cons {c : Char} (h : c ≠ '/') {cs p : List Char} {ps : List (List Char)} (he : pieces cs = p :: ps) :
    pieces (c :: cs) = (c :: p) :: ps := by
  rw [pieces, if_neg h, he]

theorem exists_pieces (cs : List Char) : ∃ p ps, pieces cs = p :: ps := by
  induction cs with
  | nil => exact ⟨[], [], rfl⟩
  | cons c cs ih =>
    obtain ⟨p, ps, he⟩ := ih
    by_cases h : c = '/'
    · exact ⟨[], pieces cs, by rw [h, pieces_slash]⟩
    · exact ⟨c :: p, ps, pieces_cons h he⟩

theorem slash_not_mem_of_mem_pieces {cs p : List Char} (h : p ∈ pieces cs) : '/' ∉ p := by
  induction cs generalizing p with
  | nil =>
    rw [List.mem_singleton.mp h]
    exact List.not_mem_nil
  | cons c cs ih =>
    obtain ⟨q, qs, he⟩ := exists_pieces cs
    by_cases hc : c = '/'
    · rw [hc, pieces_slash] at h
      rcases List.mem_cons.mp h with rfl | h
      · exact List.not_mem_nil
      · exact ih h
    · rw [pieces_cons hc he] at h
      rcases List.mem_cons.mp h with rfl | h
      · have hq := ih (he ▸ List.mem_cons_self)
        intro hm
        rcases List.mem_cons.mp hm with hm | hm
        · exact hc hm.symm
        · exact hq hm
      · exact ih (he ▸ List.mem_cons_of_mem q h)

theorem pieces_append_slash (cs ds : List Char) : pieces (cs ++ '/' :: ds) = pieces cs ++ pieces ds := by
  induction cs with
  | nil => exact pieces_slash ds
  | cons c cs ih =>
    obtain ⟨p, ps, he⟩ := exists_pieces cs
    by_cases hc : c = '/'
    · rw [hc, List.cons_append, pieces_slash, pieces_slash, ih, List.cons_append]
    · rw [he, List.cons_append] at ih
      rw [List.cons_append, pieces_cons hc ih, pieces_cons hc he, List.cons_append]

theorem pieces_of_slash_not_mem {cs : List Char} (h : '/' ∉ cs) : pieces cs = [cs] := by
  induction cs with
  | nil => rfl
  | cons c cs ih =>
    have hc : c ≠ '/' := fun hc => h (hc ▸ List.mem_cons_self)
    exact pieces_cons hc (ih fun hm => h (List.mem_cons_of_mem c hm))

/-- Pieces are found again between their slashes. -/
theorem pieces_glue {ps : List (List Char)} (hne : ps ≠ []) (hs : ∀ p ∈ ps, '/' ∉ p) : pieces (glue ps) = ps := by
  induction ps with
  | nil => exact absurd rfl hne
  | cons p ps ih =>
    have hp := pieces_of_slash_not_mem (hs p List.mem_cons_self)
    cases ps with
    | nil => exact hp
    | cons q qs =>
      have hrest := ih (List.cons_ne_nil q qs) fun x hx => hs x (List.mem_cons_of_mem p hx)
      rw [glue, pieces_append_slash, hp, hrest]
      · rfl
      · exact List.cons_ne_nil q qs

theorem head?_pieces_append_slash (cs ds : List Char) : (pieces (cs ++ '/' :: ds)).head? = (pieces cs).head? := by
  obtain ⟨p, ps, he⟩ := exists_pieces cs
  rw [pieces_append_slash, he]
  rfl

/-! ### Parts -/

def parts (body : List Char) : List (List Char) := (pieces body).filter (!isVoid ·)

theorem key_eq (path : String) : key path = ⟨(front path.toList).1, parts (front path.toList).2⟩ := rfl

theorem not_void_of_mem_parts {body p : List Char} (h : p ∈ parts body) : isVoid p = false := by
  simpa using (List.mem_filter.mp h).2

theorem slash_not_mem_of_mem_parts {body p : List Char} (h : p ∈ parts body) : '/' ∉ p :=
  slash_not_mem_of_mem_pieces (List.mem_filter.mp h).1

theorem parts_append_slash (cs ds : List Char) : parts (cs ++ '/' :: ds) = parts cs ++ parts ds := by
  rw [parts, pieces_append_slash, List.filter_append]
  rfl

theorem parts_glue {ps : List (List Char)} (hs : ∀ p ∈ ps, '/' ∉ p) : parts (glue ps) = ps.filter (!isVoid ·) := by
  by_cases hne : ps = []
  · rw [hne]
    rfl
  · rw [parts, pieces_glue hne hs]

theorem parts_of_slash_not_mem {name : List Char} (hs : '/' ∉ name) (hv : isVoid name = false) : parts name = [name] := by
  rw [parts, pieces_of_slash_not_mem hs]
  simp [hv]

theorem length_parts_le (cs : List Char) : (parts cs).length ≤ cs.length := by
  induction cs with
  | nil => exact Nat.le_refl 0
  | cons c cs ih =>
    obtain ⟨p, ps, he⟩ := exists_pieces cs
    rw [parts, he] at ih
    by_cases hc : c = '/'
    · rw [parts, hc, pieces_slash, he, List.filter_cons_of_neg (by decide)]
      exact Nat.le_succ_of_le ih
    · have hle : ((p :: ps).filter (!isVoid ·)).length ≥ (ps.filter (!isVoid ·)).length :=
        ((List.sublist_cons_self p ps).filter _).length_le
      have hle' : (((c :: p) :: ps).filter (!isVoid ·)).length ≤ (ps.filter (!isVoid ·)).length + 1 := by
        rw [List.filter_cons]
        split
        · exact Nat.le_refl _
        · exact Nat.le_succ _
      rw [parts, pieces_cons hc he, List.length_cons]
      omega

/-! ### Fronts -/

/-- Whether a front and the text behind it are read as such: behind a dot stands a slash or nothing,
and without a front the text starts with a piece that counts. -/
def Fits (f body : List Char) : Prop :=
  f = ['/'] ∨ (f = ['.'] ∧ (pieces body).head? = some []) ∨
    (f = [] ∧ (body = [] ∨ ∀ p ∈ (pieces body).head?, isVoid p = false))

theorem front_append_front (cs : List Char) : (front cs).1 ++ (front cs).2 = cs := by
  unfold front
  split <;> rfl

theorem fits_front (cs : List Char) : Fits (front cs).1 (front cs).2 := by
  unfold front
  split
  · exact Or.inl rfl
  · exact Or.inr (Or.inl ⟨rfl, rfl⟩)
  · exact Or.inr (Or.inl ⟨rfl, by rw [pieces_slash]; rfl⟩)
  · rename_i hslash hdot hdots
    refine Or.inr (Or.inr ⟨rfl, ?_⟩)
    cases cs with
    | nil => exact Or.inl rfl
    | cons c rest =>
      obtain ⟨p, ps, he⟩ := exists_pieces rest
      have hc : c ≠ '/' := fun hc => hslash rest (hc ▸ rfl)
      refine Or.inr fun q hq => ?_
      rw [pieces_cons hc he] at hq
      cases hq
      by_cases hp : c = '.' ∧ p = []
      · obtain ⟨rfl, rfl⟩ := hp
        cases rest with
        | nil => exact absurd rfl hdot
        | cons x xs =>
          by_cases hx : x = '/'
          · exact absurd (hx ▸ rfl) (hdots xs)
          · obtain ⟨r, rs, hr⟩ := exists_pieces xs
            rw [pieces_cons hx hr] at he
            cases he
      · simpa [isVoid] using hp

theorem front_of_fits {f body : List Char} (h : Fits f body) : front (f ++ body) = (f, body) := by
  obtain ⟨p, ps, he⟩ := exists_pieces body
  rcases h with rfl | ⟨rfl, h⟩ | ⟨rfl, h⟩
  · rfl
  · cases body with
    | nil => rfl
    | cons c body =>
      by_cases hc : c = '/'
      · rw [hc]
        rfl
      · obtain ⟨q, qs, hq⟩ := exists_pieces body
        rw [pieces_cons hc hq] at h
        cases h
  · rcases h with rfl | h
    · rfl
    · rw [he] at h
      have hp : isVoid p = false := h p rfl
      rw [List.nil_append]
      unfold front
      split
      · rw [pieces_slash] at he
        cases he
        cases hp
      · cases he
        cases hp
      · rename_i rest
        rw [pieces_cons (by decide) (pieces_slash rest)] at he
        cases he
        cases hp
      · rfl

/-- The parts of a path that is put together from a front and the text behind it. -/
theorem key_of_fits {f body : List Char} (h : Fits f body) : key (String.ofList (f ++ body)) = ⟨f, parts body⟩ := by
  rw [key_eq, String.toList_ofList, front_of_fits h]

theorem Fits.of_head? {f body other : List Char} (h : Fits f body) (hne : f = [] → body ≠ [])
    (hhead : (pieces other).head? = (pieces body).head?) : Fits f other := by
  rcases h with h | ⟨rfl, h⟩ | ⟨rfl, h⟩
  · exact Or.inl h
  · exact Or.inr (Or.inl ⟨rfl, hhead.trans h⟩)
  · rcases h with h | h
    · exact absurd h (hne rfl)
    · exact Or.inr (Or.inr ⟨rfl, Or.inr (hhead ▸ h)⟩)

/-! ### Paths in a directory -/

namespace Key

def child (k : Key) (name : List Char) : Key := ⟨k.front, k.parts ++ [name]⟩

end Key

theorem key_append_slash {f body before name : List Char} (h : Fits f body) (hne : f = [] → body ≠ [])
    (hhead : (pieces before).head? = (pieces body).head?) :
    key (String.ofList (f ++ (before ++ '/' :: name))) = ⟨f, parts before ++ parts name⟩ := by
  have hfits : Fits f (before ++ '/' :: name) := h.of_head? hne ((head?_pieces_append_slash before name).trans hhead)
  rw [key_of_fits hfits, parts_append_slash]

/-- A name behind a slash at the end of a path. -/
theorem key_append_of_getLast? {f body name : List Char} (h : Fits f body) (hlast : (f ++ body).getLast? = some '/') :
    key (String.ofList (f ++ (body ++ name))) = ⟨f, parts body ++ parts name⟩ := by
  rcases List.eq_nil_or_concat body with rfl | ⟨before, c, rfl⟩
  · rcases h with rfl | ⟨rfl, -⟩ | ⟨rfl, -⟩
    · exact key_of_fits (Or.inl rfl)
    · cases hlast
    · cases hlast
  · rw [List.concat_eq_append] at *
    have hc : c = '/' := by
      rw [← List.append_assoc, List.getLast?_concat] at hlast
      exact Option.some.inj hlast
    rw [hc] at h ⊢
    have hkey : key (String.ofList (f ++ (before ++ '/' :: name))) = ⟨f, parts before ++ parts name⟩ :=
      key_append_slash h (fun _ => by simp) (head?_pieces_append_slash before []).symm
    rw [List.append_assoc, List.singleton_append, hkey, parts_append_slash]
    exact congrArg (fun ps => Key.mk f (ps ++ parts name)) (List.append_nil _).symm

theorem key_of_name {name : List Char} (hs : '/' ∉ name) (hv : isVoid name = false) :
    key (String.ofList name) = ⟨[], [name]⟩ := by
  have hfits : Fits [] name := by
    refine Or.inr (Or.inr ⟨rfl, Or.inr fun p hp => ?_⟩)
    rw [pieces_of_slash_not_mem hs] at hp
    cases hp
    exact hv
  have hkey := key_of_fits hfits
  rwa [List.nil_append, parts_of_slash_not_mem hs hv] at hkey

theorem key_join (directory : String) {name : String} (hs : '/' ∉ name.toList) (hv : isVoid name.toList = false) :
    key (join directory name) = (key directory).child name.toList := by
  have hname := parts_of_slash_not_mem hs hv
  have hrelative : isAbsolute name = false :=
    decide_eq_false fun hhead => hs (List.mem_of_mem_head? hhead)
  have hcut := front_append_front directory.toList
  have hfront := fits_front directory.toList
  rw [key_eq directory, Key.child]
  generalize (front directory.toList).1 = f, (front directory.toList).2 = body at hcut hfront
  rw [join, hrelative, Bool.false_or, ← hname]
  by_cases he : directory.isEmpty = true
  · have hnil : f = [] ∧ body = [] := by
      rw [String.isEmpty_iff.mp he] at hcut
      exact List.append_eq_nil_iff.mp hcut
    have hkey := key_of_name hs hv
    rw [String.ofList_toList] at hkey
    rw [if_pos he, hnil.1, hnil.2, hkey, hname]
    rfl
  have hne : f = [] → body ≠ [] := by
    rintro rfl rfl
    exact he (String.isEmpty_iff.mpr (String.toList_eq_nil_iff.mp hcut.symm))
  rw [if_neg he]
  split
  · rename_i hlast
    have htext : directory ++ name = String.ofList (f ++ (body ++ name.toList)) := by
      rw [← List.append_assoc, hcut, ← String.toList_append, String.ofList_toList]
    rw [← hcut] at hlast
    rw [htext, key_append_of_getLast? hfront hlast]
  · have htext : directory ++ "/" ++ name = String.ofList (f ++ (body ++ '/' :: name.toList)) := by
      rw [← List.append_assoc, hcut]
      exact String.toList_injective (by simp)
    rw [htext, key_append_slash hfront hne rfl]

/-! ### Normal forms -/

def climb (acc : List (List Char)) (part : List Char) : List (List Char) :=
  if part = ['.', '.'] then acc.drop 1 else part :: acc

def Key.normal (k : Key) : Key :=
  ⟨if k.front = ['/'] then ['/'] else [], (k.parts.foldl climb []).reverse⟩

theorem mem_foldl_climb {ps acc : List (List Char)} {p : List Char} (h : p ∈ ps.foldl climb acc) :
    p ∈ ps ∨ p ∈ acc := by
  induction ps generalizing acc with
  | nil => exact Or.inr h
  | cons q ps ih =>
    rcases ih h with h | h
    · exact Or.inl (List.mem_cons_of_mem q h)
    · unfold climb at h
      split at h
      · exact Or.inr (List.mem_of_mem_drop h)
      · rcases List.mem_cons.mp h with rfl | h
        · exact Or.inl List.mem_cons_self
        · exact Or.inr h

theorem normalize_eq (path : String) :
    normalize path = String.ofList ((key path).normal.front ++ glue (key path).normal.parts) := by
  have hstep : (fun (acc : List (List Char)) piece =>
      if isVoid piece then acc else if piece = ['.', '.'] then acc.drop 1 else piece :: acc) =
      fun acc piece => if (!isVoid piece) = true then climb acc piece else acc := by
    funext acc piece
    cases isVoid piece <;> rfl
  have hfront : (if (front path.toList).1 = ['/'] then (front path.toList).1 else []) =
      if (front path.toList).1 = ['/'] then ['/'] else [] := by
    split <;> simp_all
  unfold normalize
  rw [key_eq, Key.normal, parts, List.foldl_filter, ← hstep]
  simp only [hfront]

theorem key_normalize (path : String) : key (normalize path) = (key path).normal := by
  rw [normalize_eq]
  have hmem : ∀ p ∈ (key path).normal.parts, isVoid p = false ∧ '/' ∉ p := by
    intro p hp
    rcases mem_foldl_climb (List.mem_reverse.mp hp) with hp | hp
    · exact ⟨not_void_of_mem_parts hp, slash_not_mem_of_mem_parts hp⟩
    · cases hp
  have hparts : parts (glue (key path).normal.parts) = (key path).normal.parts := by
    rw [parts_glue fun p hp => (hmem p hp).2]
    exact List.filter_eq_self.mpr fun p hp => by rw [(hmem p hp).1]; rfl
  have hfits : Fits (key path).normal.front (glue (key path).normal.parts) := by
    by_cases hroot : (key path).front = ['/']
    · exact Or.inl (if_pos hroot)
    · refine Or.inr (Or.inr ⟨if_neg hroot, ?_⟩)
      by_cases hnil : (key path).normal.parts = []
      · exact Or.inl (by rw [hnil]; rfl)
      · refine Or.inr fun p hp => ?_
        rw [pieces_glue hnil fun p hp => (hmem p hp).2] at hp
        exact (hmem p (List.mem_of_mem_head? hp)).1
  rw [key_of_fits hfits, hparts]

theorem dots_not_mem_foldl_climb {ps acc : List (List Char)} (h : ['.', '.'] ∉ acc) : ['.', '.'] ∉ ps.foldl climb acc := by
  induction ps generalizing acc with
  | nil => exact h
  | cons p ps ih =>
    refine ih ?_
    unfold climb
    split
    · exact fun hmem => h (List.mem_of_mem_drop hmem)
    · rename_i hp
      exact List.not_mem_cons_of_ne_of_not_mem (Ne.symm hp) h

theorem foldl_climb_of_not_mem {ps acc : List (List Char)} (h : ['.', '.'] ∉ ps) : ps.foldl climb acc = ps.reverse ++ acc := by
  induction ps generalizing acc with
  | nil => rfl
  | cons p ps ih =>
    obtain ⟨hp, hps⟩ := List.ne_and_not_mem_of_not_mem_cons h
    rw [List.foldl_cons, climb, if_neg (Ne.symm hp), ih hps, List.reverse_cons, List.append_assoc]
    rfl

theorem Key.normal_normal (k : Key) : k.normal.normal = k.normal := by
  have hdots : ['.', '.'] ∉ k.normal.parts := by
    intro h
    have hclimb : ['.', '.'] ∉ k.parts.foldl climb [] := dots_not_mem_foldl_climb List.not_mem_nil
    exact hclimb (List.mem_reverse.mp h)
  have hparts : (k.normal.parts.foldl climb []).reverse = k.normal.parts := by
    rw [foldl_climb_of_not_mem hdots, List.append_nil, List.reverse_reverse]
  have hfront : (if k.normal.front = ['/'] then ['/'] else []) = k.normal.front := by
    unfold Key.normal
    split <;> rfl
  exact (Key.mk.injEq _ _ _ _).mpr ⟨hfront, hparts⟩

/-- Normal paths of the same file are the same text. -/
theorem normalize_eq_of_key_eq {a b : String} (h : key (normalize (normalize a)) = key (normalize (normalize b))) :
    normalize a = normalize b := by
  simp only [key_normalize, Key.normal_normal] at h
  rw [normalize_eq a, normalize_eq b, h]

theorem Key.normal_child (k : Key) {name : List Char} (h : name ≠ ['.', '.']) :
    (k.child name).normal = k.normal.child name := by
  rw [Key.child, Key.normal, List.foldl_append, List.foldl_cons, List.foldl_nil, climb, if_neg h, List.reverse_cons]
  rfl

/-! ### The last part -/

theorem dropWhile_isVoid (ps : List (List Char)) :
    (ps.dropWhile isVoid = [] ∧ ps.filter (!isVoid ·) = []) ∨
    ∃ p rest, ps.dropWhile isVoid = p :: rest ∧ isVoid p = false ∧ ps.filter (!isVoid ·) = p :: rest.filter (!isVoid ·) := by
  induction ps with
  | nil => exact Or.inl ⟨rfl, rfl⟩
  | cons q ps ih =>
    by_cases hq : isVoid q = true
    · rw [List.dropWhile_cons_of_pos hq, List.filter_cons_of_neg (by rw [hq]; decide)]
      exact ih
    · have hq : isVoid q = false := Bool.eq_false_iff.mpr hq
      exact Or.inr ⟨q, ps, by rw [List.dropWhile_cons, hq]; rfl, hq, List.filter_cons_of_pos (by rw [hq]; rfl)⟩

theorem last?_eq (body : List Char) :
    (last? body = none ∧ parts body = []) ∨
    ∃ p before, last? body = some (p, before) ∧ parts body = (before.filter (!isVoid ·)).reverse ++ [p] ∧
      before.reverse <+: pieces body := by
  have hreverse : parts body = ((pieces body).reverse.filter (!isVoid ·)).reverse := by
    rw [List.filter_reverse, List.reverse_reverse, parts]
  unfold last?
  rcases dropWhile_isVoid (pieces body).reverse with ⟨hdrop, hfilter⟩ | ⟨p, before, hdrop, -, hfilter⟩
  · rw [hdrop, hreverse, hfilter]
    exact Or.inl ⟨rfl, rfl⟩
  · rw [hdrop, hreverse, hfilter, List.reverse_cons]
    refine Or.inr ⟨p, before, rfl, rfl, ?_⟩
    have hsuffix : before <:+ (pieces body).reverse :=
      (List.suffix_cons p before).trans (hdrop ▸ List.dropWhile_suffix isVoid)
    have hprefix := List.reverse_prefix.mpr hsuffix
    rwa [List.reverse_reverse] at hprefix

theorem fileName?_eq (path : String) : fileName? path =
    (key path).parts.getLast?.bind fun p => if p = ['.', '.'] then none else some (String.ofList p) := by
  rw [key_eq, fileName?]
  rcases last?_eq (front path.toList).2 with ⟨hlast, hparts⟩ | ⟨p, before, hlast, hparts, -⟩
  · rw [hlast, hparts]
    rfl
  · rw [hlast, hparts, List.getLast?_concat]
    rfl

/-! ### What lies above -/

namespace Key

def parent? (k : Key) : Option Key :=
  if k.parts = [] then if k.front = ['.'] then some ⟨[], []⟩ else none else some ⟨k.front, k.parts.dropLast⟩

def depth (k : Key) : Nat := k.parts.length + if k.front = ['.'] then 1 else 0

theorem depth_parent {k above : Key} (h : k.parent? = some above) : above.depth < k.depth := by
  unfold parent? at h
  split at h
  · split at h
    · rename_i hdot
      cases h
      rw [depth, depth, if_pos hdot, if_neg (by decide)]
      exact Nat.lt_add_left _ Nat.zero_lt_one
    · cases h
  · rename_i hne
    cases h
    have hpos := List.length_pos_iff.mpr hne
    simp only [depth, List.length_dropLast]
    omega

end Key

theorem Fits.glue_of_prefix {f body : List Char} {ps : List (List Char)} (h : Fits f body) (hpre : ps <+: pieces body)
    (hlast : ∀ p ∈ ps.getLast?, isVoid p = false) : Fits f (glue ps) := by
  by_cases hnil : ps = []
  · rw [hnil]
    rcases h with h | ⟨h, -⟩ | ⟨h, -⟩
    · exact Or.inl h
    · exact Or.inr (Or.inl ⟨h, rfl⟩)
    · exact Or.inr (Or.inr ⟨h, Or.inl rfl⟩)
  · refine h.of_head? ?_ ?_
    · rintro - rfl
      rcases List.prefix_cons_iff.mp hpre with h | ⟨t, h, ht⟩
      · exact hnil h
      · rw [h, List.prefix_nil.mp ht] at hlast
        exact absurd (hlast [] rfl) (by decide)
    · rw [pieces_glue hnil fun p hp => slash_not_mem_of_mem_pieces (hpre.subset hp)]
      obtain ⟨p, ps, rfl⟩ := List.exists_cons_of_ne_nil hnil
      obtain ⟨rest, hrest⟩ := hpre
      rw [← hrest]
      rfl

theorem map_key_parent? (path : String) : (parent? path).map key = (key path).parent? := by
  have hfront := fits_front path.toList
  rw [key_eq, parent?, Key.parent?]
  rcases last?_eq (front path.toList).2 with ⟨hlast, hparts⟩ | ⟨p, before, hlast, hparts, hpre⟩
  · simp only [hlast, hparts, if_true]
    split <;> rfl
  · have hne : ¬parts (front path.toList).2 = [] := by
      rw [hparts]
      exact List.append_ne_nil_of_right_ne_nil _ (List.cons_ne_nil p [])
    simp only [hlast, if_neg hne, Option.map_some]
    have hsuffix := List.reverse_prefix.mpr (List.dropWhile_suffix (l := before) isVoid)
    have hfits : Fits (front path.toList).1 (glue (before.dropWhile isVoid).reverse) := by
      refine hfront.glue_of_prefix (hsuffix.trans hpre) fun q hq => ?_
      rw [List.getLast?_reverse] at hq
      rcases dropWhile_isVoid before with ⟨hdrop, -⟩ | ⟨x, rest, hdrop, hx, -⟩
      · rw [hdrop] at hq
        cases hq
      · rw [hdrop] at hq
        cases hq
        exact hx
    have hglue : parts (glue (before.dropWhile isVoid).reverse) = (before.filter (!isVoid ·)).reverse := by
      rw [parts_glue fun q hq => slash_not_mem_of_mem_pieces ((hsuffix.trans hpre).subset hq), List.filter_reverse]
      rcases dropWhile_isVoid before with ⟨hdrop, hfilter⟩ | ⟨x, rest, hdrop, hx, hfilter⟩
      · rw [hdrop, hfilter]
        rfl
      · rw [hdrop, hfilter, List.filter_cons_of_pos (by rw [hx]; rfl)]
    rw [key_of_fits hfits, hglue, hparts, List.dropLast_concat]

end Restyle.Path
