import DocMapper.Http.Url
import DocMapper.Proofs.Number.Digits
import Mathlib.Data.List.DropRight

/-!
# Addresses with user information

An address may name a user before its host, and a password for the user.  Every
address from which a user is read has this form, and a different password in it
changes nothing of what is read but the password.
-/

namespace DocMapper.Url

structure IsScheme (scheme : List Char) : Prop where
  chars : ∀ c ∈ scheme, isSchemeChar c = true
  head : ∀ c ∈ scheme.head?, c.isAlpha = true

theorem isScheme_nil : IsScheme [] := ⟨List.forall_mem_nil _, by simp⟩

/-- An address with user information, less the password. -/
structure Login where
  /-- Empty if the address has none. -/
  scheme : List Char
  user : List Char
  /-- With its port. -/
  host : List Char
  path : List Char
  isScheme : IsScheme scheme
  user_chars : ∀ c ∈ user, c ≠ ':' ∧ c ≠ '/'
  host_chars : ∀ c ∈ host, c ≠ '@' ∧ c ≠ '/'
  path_head : ∀ c ∈ path.head?, c = '/'

abbrev Password := { cs : List Char // '/' ∉ cs }

instance : Inhabited Password := ⟨⟨[], List.not_mem_nil⟩⟩

def schemeMark (scheme : List Char) : List Char :=
  if scheme.isEmpty then [] else scheme ++ [':']

def passwordMark (password : Option Password) : List Char :=
  password.elim [] fun p => ':' :: p.val

namespace Login

def userInfo (login : Login) (password : Option Password) : List Char :=
  login.user ++ passwordMark password

def chars (login : Login) (password : Option Password) : List Char :=
  schemeMark login.scheme ++
    '/' :: '/' :: (login.userInfo password ++ '@' :: login.host ++ login.path)

def address (login : Login) (password : Option Password) : String :=
  String.ofList (login.chars password)

theorem passwordMark_injective : Function.Injective passwordMark := by
  intro p q same
  cases p <;> cases q <;> simp_all [passwordMark, Subtype.ext_iff]

theorem address_inj {login : Login} {p q : Option Password} :
    login.address p = login.address q ↔ p = q := by
  rw [address, address, String.ofList_inj]
  simp [chars, userInfo, passwordMark_injective.eq_iff]

theorem slash_not_mem_userInfo (login : Login) (password : Option Password) :
    '/' ∉ login.userInfo password := by
  simp only [userInfo, List.mem_append, not_or]
  refine ⟨fun inside => (login.user_chars _ inside).2 rfl, ?_⟩
  cases password with
  | none => simp [passwordMark]
  | some p => simpa [passwordMark] using p.property

end Login

theorem splitScheme_append {scheme rest : List Char} (isScheme : IsScheme scheme)
    (stops : ∀ c ∈ rest.head?, isSchemeChar c = false) :
    splitScheme (schemeMark scheme ++ rest) = (scheme, rest) := by
  cases scheme with
  | nil =>
    have run := Digits.span_eq_iff.2 ⟨List.nil_append rest, List.forall_mem_nil _, stops⟩
    change splitScheme rest = ([], rest)
    rw [splitScheme, run]
  | cons c name =>
    have whole : c :: name ++ ':' :: rest = schemeMark (c :: name) ++ rest := by simp [schemeMark]
    have run := Digits.span_eq_iff.2 ⟨whole, isScheme.chars, by simp; decide⟩
    rw [splitScheme, run]
    exact if_pos (isScheme.head c rfl)

theorem parts_of_splitScheme {cs scheme rest : List Char}
    (split : splitScheme cs = (scheme, rest)) :
    schemeMark scheme ++ rest = cs ∧ IsScheme scheme := by
  rw [splitScheme] at split
  split at split
  next c name after run =>
    obtain ⟨whole, chars, -⟩ := Digits.span_eq_iff.1 run
    split at split
    next letter =>
      cases split
      exact ⟨by simpa [schemeMark] using whole, chars, by simpa using letter⟩
    next =>
      cases split
      exact ⟨rfl, isScheme_nil⟩
  next =>
    cases split
    exact ⟨rfl, isScheme_nil⟩

theorem splitAuthority_eq_iff {cs authority path : List Char} (filled : authority ≠ []) :
    splitAuthority cs = (authority, path) ↔ '/' :: '/' :: (authority ++ path) = cs ∧
      '/' ∉ authority ∧ ∀ c ∈ path.head?, c = '/' := by
  have run {rest : List Char} : rest.span (· != '/') = (authority, path) ↔
      authority ++ path = rest ∧ '/' ∉ authority ∧ ∀ c ∈ path.head?, c = '/' := by
    simp only [Digits.span_eq_iff, bne_iff_ne, bne_eq_false_iff_eq, ne_eq]
    exact and_congr_right fun _ => and_congr_left fun _ => List.forall_mem_ne'
  constructor
  · intro split
    rw [splitAuthority.eq_def] at split
    split at split
    next rest => exact (run.1 split).imp_left (congrArg fun cs => '/' :: '/' :: cs)
    next => exact absurd (congrArg Prod.fst split).symm filled
  · rintro ⟨rfl, parts⟩
    exact run.2 ⟨rfl, parts⟩

theorem splitUser_eq_some_iff {cs user host : List Char} :
    splitUser cs = (some user, host) ↔ user ++ '@' :: host = cs ∧ '@' ∉ host := by
  constructor
  · intro split
    rw [splitUser] at split
    split at split
    next reversed before run =>
      cases split
      obtain ⟨whole, inside, -⟩ := Digits.span_eq_iff.1 run
      refine ⟨?_, fun sign => ?_⟩
      · simpa using congrArg List.reverse whole
      · simpa using inside _ (List.mem_reverse.mp sign)
    next => cases split
  · rintro ⟨rfl, outside⟩
    have run : (user ++ '@' :: host).reverse.span (· != '@') =
        (host.reverse, '@' :: user.reverse) := by
      refine Digits.span_eq_iff.2 ⟨by simp, fun c mem => ?_, by simp⟩
      simpa using ne_of_mem_of_not_mem (List.mem_reverse.mp mem) outside
    rw [splitUser, run]
    simp

/-! ## Reading the form -/

def Login.credentials (login : Login) (password : Option Password) : String × String :=
  (Percent.decode (String.ofList login.user),
    Percent.decode (String.ofList (password.elim [] Subtype.val)))

theorem credentials_userInfo (login : Login) (password : Option Password) :
    credentials (login.userInfo password) = login.credentials password := by
  have run : (login.userInfo password).span (· != ':') = (login.user, passwordMark password) := by
    refine Digits.span_eq_iff.2 ⟨rfl, fun c mem => ?_, ?_⟩
    · simpa using (login.user_chars c mem).1
    · cases password <;> simp [passwordMark]
  rw [Url.credentials, run]
  cases password <;> rfl

theorem rdropWhile_append {p : Char → Bool} {front : List Char} (kept : front.rdropWhile p = front)
    (path : List Char) : (front ++ path).rdropWhile p = front ++ path.rdropWhile p := by
  induction path using List.reverseRecOn with
  | nil => rw [List.append_nil, kept, List.rdropWhile_nil, List.append_nil]
  | append_singleton path c ih =>
    rw [← List.append_assoc, List.rdropWhile_concat, List.rdropWhile_concat, ih]
    split <;> simp

theorem withoutEndSlashes_address (login : Login) (password : Option Password) :
    (withoutEndSlashes (login.address password)).toList =
      schemeMark login.scheme ++ '/' :: '/' ::
        (login.userInfo password ++ '@' :: login.host ++ login.path.rdropWhile (· == '/')) := by
  have kept (front : List Char) :
      (front ++ '@' :: login.host).rdropWhile (· == '/') = front ++ '@' :: login.host := by
    rw [List.rdropWhile_eq_self_iff]
    intro filled slash
    have last := List.getLast_mem (List.cons_ne_nil '@' login.host)
    rw [List.getLast_append_of_ne_nil _ (List.cons_ne_nil _ _)] at slash
    rcases List.mem_cons.mp last with at_sign | inside
    · simp [at_sign] at slash
    · exact (login.host_chars _ inside).2 (by simpa using slash)
  have dropped := rdropWhile_append
    (kept (schemeMark login.scheme ++ '/' :: '/' :: login.userInfo password)) login.path
  simpa [withoutEndSlashes, List.rdropWhile, Login.address, Login.chars] using dropped

/-- Every part is read back; a user and a password that are both empty count as none. -/
theorem ofText_address (login : Login) (password : Option Password) :
    let named := login.credentials password
    ofText (login.address password) =
      ⟨lowered login.scheme, if named.1.isEmpty && named.2.isEmpty then none else some named,
        lowered (splitHost login.host).1, portOf (lowered login.scheme) (splitHost login.host).2,
        String.ofList (login.path.rdropWhile (· == '/')) ++ "/"⟩ := by
  intro named
  have head : ∀ c ∈ (login.path.rdropWhile (· == '/')).head?, c = '/' := by
    intro c first
    obtain ⟨slashes, whole⟩ := List.rdropWhile_prefix (· == '/') (l := login.path)
    refine login.path_head c ?_
    rw [← whole, List.head?_append, first]
    rfl
  have slash : ∀ c ∈ ('/' :: '/' :: (login.userInfo password ++ '@' :: login.host ++
      login.path.rdropWhile (· == '/'))).head?, isSchemeChar c = false := by simp; decide
  have scheme := splitScheme_append login.isScheme slash
  have authority : '/' ∉ login.userInfo password ++ '@' :: login.host := by
    simp only [List.mem_append, List.mem_cons, not_or]
    exact ⟨login.slash_not_mem_userInfo password, by decide,
      fun inside => (login.host_chars _ inside).2 rfl⟩
  have outside : '@' ∉ login.host := fun inside => (login.host_chars _ inside).1 rfl
  rw [ofText, withoutEndSlashes_address, scheme]
  dsimp only
  rw [(splitAuthority_eq_iff (by simp)).2 ⟨rfl, authority, head⟩]
  dsimp only
  rw [splitUser_eq_some_iff.2 ⟨rfl, outside⟩, Option.map_some, credentials_userInfo]

def userName (url : Url) : String := (url.user.map Prod.fst).getD ""

def withoutPassword (url : Url) : Url := { url with user := some (url.userName, "") }

theorem withoutPassword_address (login : Login) (p q : Option Password) :
    (ofText (login.address p)).withoutPassword = (ofText (login.address q)).withoutPassword := by
  have named (password : Option Password) :
      (ofText (login.address password)).userName = Percent.decode (String.ofList login.user) := by
    rw [ofText_address, userName]
    dsimp only
    split
    next empty =>
      have empty := String.isEmpty_iff.mp (Bool.and_eq_true_iff.mp empty).1
      exact empty.symm
    next => rfl
  rw [withoutPassword, withoutPassword, named, named, ofText_address, ofText_address]

/-- The same text but for the password after the user. -/
inductive AlikeButPassword : String → String → Prop
  | same (address : String) : AlikeButPassword address address
  | login (login : Login) (p q : Option Password) :
      AlikeButPassword (login.address p) (login.address q)

theorem AlikeButPassword.withoutPassword_eq {s t : String} (alike : AlikeButPassword s t) :
    (ofText s).withoutPassword = (ofText t).withoutPassword := by
  cases alike with
  | same => rfl
  | login login p q => exact withoutPassword_address login p q

theorem exists_userInfo {info : List Char} (inside : '/' ∉ info) :
    ∃ (user : List Char) (password : Option Password),
      (∀ c ∈ user, c ≠ ':' ∧ c ≠ '/') ∧ user ++ passwordMark password = info := by
  rcases split : info.span (· != ':') with ⟨user, rest⟩
  obtain ⟨rfl, before, stops⟩ := Digits.span_eq_iff.1 split
  rw [List.mem_append, not_or] at inside
  have user_chars (c : Char) (mem : c ∈ user) : c ≠ ':' ∧ c ≠ '/' :=
    ⟨by simpa using before c mem, ne_of_mem_of_not_mem mem inside.1⟩
  cases rest with
  | nil => exact ⟨user, none, user_chars, rfl⟩
  | cons c cs =>
    obtain rfl : c = ':' := by simpa using stops c rfl
    have kept : '/' ∉ cs := fun slash => inside.2 (List.mem_cons_of_mem _ slash)
    exact ⟨user, some ⟨cs, kept⟩, user_chars, rfl⟩

theorem exists_endSlashes (s : String) :
    ∃ slashes, (withoutEndSlashes s).toList ++ slashes = s.toList ∧ ∀ c ∈ slashes, c = '/' := by
  refine ⟨s.toList.rtakeWhile (· == '/'), ?_, fun c mem => ?_⟩
  · rw [withoutEndSlashes, String.toList_ofList]
    exact List.rdropWhile_append_rtakeWhile
  · simpa using List.mem_rtakeWhile_imp mem

theorem exists_login {s : String} (named : (ofText s).user ≠ none) :
    ∃ (login : Login) (password : Option Password), s = login.address password := by
  -- The slashes that reading passes over belong to the path of the login.
  obtain ⟨slashes, text, all_slashes⟩ := exists_endSlashes s
  rw [ofText] at named
  rcases scheme : splitScheme (withoutEndSlashes s).toList with ⟨name, rest⟩
  rcases authority : splitAuthority rest with ⟨server, path⟩
  rcases user : splitUser server with ⟨info?, host⟩
  simp only [scheme, authority, user] at named
  cases info? with
  | none => exact absurd rfl named
  | some info =>
    obtain ⟨whole, isScheme⟩ := parts_of_splitScheme scheme
    obtain ⟨joined, outside⟩ := splitUser_eq_some_iff.1 user
    obtain ⟨rested, inside, stops⟩ := (splitAuthority_eq_iff (by simp [← joined])).1 authority
    simp only [← joined, List.mem_append, List.mem_cons, not_or] at inside
    obtain ⟨user, password, user_chars, info_eq⟩ := exists_userInfo inside.1
    have path_head (c : Char) (first : c ∈ (path ++ slashes).head?) : c = '/' := by
      rw [List.head?_append, Option.mem_def, Option.or_eq_some_iff] at first
      rcases first with first | ⟨-, first⟩
      · exact stops c first
      · exact all_slashes c (List.mem_of_head? first)
    have host_chars (c : Char) (mem : c ∈ host) : c ≠ '@' ∧ c ≠ '/' :=
      ⟨ne_of_mem_of_not_mem mem outside, ne_of_mem_of_not_mem mem inside.2.2⟩
    refine ⟨⟨name, user, host, path ++ slashes, isScheme, user_chars, host_chars, path_head⟩,
      password, ?_⟩
    rw [← String.toList_inj, ← text, ← whole, ← rested, ← joined, ← info_eq]
    simp [Login.address, Login.chars, Login.userInfo]

end DocMapper.Url
