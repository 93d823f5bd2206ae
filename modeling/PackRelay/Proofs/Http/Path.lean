import PackRelay.Proofs.Backend.Locator
import PackRelay.Proofs.Http.Serving

/-! Which repository a request path reaches. Between the slashes and the service there is a name that
descends, or the request is refused and no backend hears of it. -/
namespace PackRelay

open RepositoryPath

namespace Http

/-- The path asks for the service of a name, with any number of slashes around the name. -/
def AsksFor (path : String) (name : List Char) : Prop :=
  ∃ before after, path.toList =
    List.replicate before '/' ++ name ++ List.replicate after '/' ++ serviceSuffix

def located (l : Locator) (path : String) : Option Target :=
  (uploadPackRepository? path).bind fun repo => (l.locate repo).toOption

variable {path other repo : String} {name : List Char} {l : Locator} {target : Target}

theorem uploadPackRepository?_eq_some_iff :
    uploadPackRepository? path = some repo ↔
      (∃ before, path.toList = List.replicate before '/' ++ repo.toList ++ serviceSuffix) ∧
        repo.toList ≠ [] ∧ repo.toList.head? ≠ some '/' := by
  constructor
  · intro found
    simp only [uploadPackRepository?] at found
    split at found
    · rename_i ends
      obtain ⟨front, whole⟩ := List.isSuffixOf_iff_suffix.1 ends
      have taken : path.toList.take (path.toList.length - serviceSuffix.length) = front := by
        rw [← whole, List.length_append, Nat.add_sub_cancel, List.take_left]
      obtain ⟨before, parts, starts⟩ := exists_trimStart front
      rw [taken] at found
      split at found
      · cases found
      · rename_i rest nonempty
        cases found
        rw [String.toList_ofList]
        refine ⟨⟨before, ?_⟩, nonempty, starts⟩
        rw [← parts, whole]
    · cases found
  · rintro ⟨⟨before, whole⟩, nonempty, starts⟩
    have taken : path.toList.take (path.toList.length - serviceSuffix.length) =
        List.replicate before '/' ++ repo.toList := by
      rw [whole, List.length_append, Nat.add_sub_cancel, List.take_left]
    have ends : serviceSuffix.isSuffixOf path.toList = true :=
      List.isSuffixOf_iff_suffix.2 (whole ▸ List.suffix_append _ _)
    simp only [uploadPackRepository?, ends, if_true, taken, trimStart_replicate,
      trimStart_of_head starts]
    cases chars : repo.toList with
    | nil => exact absurd chars nonempty
    | cons c cs => simp only [← chars, String.ofList_toList]

theorem located_eq_some : located l path = some target ↔
    ∃ repo, uploadPackRepository? path = some repo ∧ l.locate repo = .ok target := by
  rw [located, Option.bind_eq_some_iff]
  refine exists_congr fun repo => and_congr_right fun _ => ?_
  cases l.locate repo <;> simp [Except.toOption]

theorem asked_of_descends (descends : Descends name) {before after : Nat} (whole : path.toList =
      List.replicate before '/' ++ name ++ List.replicate after '/' ++ serviceSuffix) :
    uploadPackRepository? path = some (.ofList (name ++ List.replicate after '/')) := by
  have starts : (name ++ List.replicate after '/').head? ≠ some '/' := by
    cases name with
    | nil => exact absurd rfl descends.nonempty
    | cons c name => exact descends.starts
  refine uploadPackRepository?_eq_some_iff.2 ?_
  rw [String.toList_ofList]
  refine ⟨⟨before, ?_⟩, fun none_left => descends.nonempty ?_, starts⟩
  · rw [whole]
    simp only [List.append_assoc]
  · exact (List.append_eq_nil_iff.1 none_left).1

/-- Exactly the names that descend are located. -/
theorem located_eq_some_iff :
    located l path = some target ↔ ∃ name, Descends name ∧ AsksFor path name ∧
      target = ⟨l.backend, ⟨l.storageName, .ofList (withSuffix name)⟩, l.gitConfigOptions⟩ := by
  rw [located_eq_some]
  constructor
  · rintro ⟨repo, asked, found⟩
    obtain ⟨⟨before, whole⟩, _⟩ := uploadPackRepository?_eq_some_iff.1 asked
    obtain ⟨cs, accepted, rfl⟩ := Locator.locate_eq_ok_iff.1 found
    obtain ⟨before', after, name, descends, parts, rfl⟩ := relative?_eq_some_iff.1 accepted
    refine ⟨name, descends, ⟨before + before', after, ?_⟩, rfl⟩
    rw [whole, parts, ← List.replicate_append_replicate]
    simp only [List.append_assoc]
  · rintro ⟨name, descends, ⟨before, after, whole⟩, rfl⟩
    refine ⟨_, asked_of_descends descends whole, Locator.locate_eq_ok_iff.2 ⟨_, ?_, rfl⟩⟩
    rw [String.toList_ofList]
    exact relative?_eq_some_iff.2 ⟨0, after, name, descends, rfl, rfl⟩

/-- A name that is asked for decides what is reached. -/
theorem located_of_asksFor (descends : Descends name) (asks : AsksFor path name) :
    located l path =
      some ⟨l.backend, ⟨l.storageName, .ofList (withSuffix name)⟩, l.gitConfigOptions⟩ :=
  located_eq_some_iff.2 ⟨name, descends, asks, rfl⟩

/-- The request puts a path to the service of repositories, its escapes undone. -/
structure Puts (r : Request) (path : String) : Prop where
  method : r.method = "POST"
  elsewhere : targetPath r.target ≠ healthPath
  decoded : ∃ c rest, targetPath r.target = '/' :: c :: rest ∧ decodePath? (c :: rest) = some path

variable {r : Request}

theorem Puts.route (puts : Puts r path) (l : Locator) :
    Http.route l r.method r.target =
      match located l path with
      | some target => .ok (.uploadPack target)
      | none => .error (if uploadPackRepository? path = none then .notFound else .noRepository) := by
  obtain ⟨c, rest, parts, decoded⟩ := puts.decoded
  have elsewhere := puts.elsewhere
  rw [parts] at elsewhere
  simp only [Http.route, parts, elsewhere, if_false, puts.method, if_true, locateAt, decoded, located]
  cases uploadPackRepository? path with
  | none => rfl
  | some repo =>
    simp only [Option.bind_some, reduceCtorEq, if_false]
    cases l.locate repo <;> rfl

end Http

namespace Server
open Http

/-- What becomes of a path: it leads to a repository below the storage, which has one path of its
own, or nowhere. -/
structure Confines (server : Server) (path : String) : Prop where
  located_iff : (∃ target, located server.locator path = some target) ↔
    ∃ name, Descends name ∧ AsksFor path name
  reaches : ∀ name, Descends name → AsksFor path name → located server.locator path =
    some ⟨server.locator.backend, ⟨server.locator.storageName, .ofList (withSuffix name)⟩,
      server.locator.gitConfigOptions⟩
  inside : ∀ target, located server.locator path = some target →
    Descends target.repository.relativePath.toList ∧
      suffix <:+ target.repository.relativePath.toList ∧
      server.locator.locate target.repository.relativePath = .ok target
  apart : ∀ other target target', located server.locator path = some target →
    located server.locator other = some target' → target.repository = target'.repository →
    ∀ name name', Descends name → AsksFor path name → Descends name' → AsksFor other name' →
      name = name' ∨ name' = name ++ suffix ∨ name = name' ++ suffix
  refused : located server.locator path = none → ∀ now r id call channel, Puts r path →
    ∃ reply, server.accept now r id call channel = .error reply ∧ reply.status = 404
  served : ∀ target, located server.locator path = some target →
    ∀ now r id call channel, Puts r path → server.accept now r id call channel =
      .ok (.start server.controller server.config.timeouts.connect now target r id call channel)

theorem confines_every_path (server : Server) (path : String) : server.Confines path where
  located_iff := by
    constructor
    · rintro ⟨target, found⟩
      obtain ⟨name, descends, asks, _⟩ := located_eq_some_iff.1 found
      exact ⟨name, descends, asks⟩
    · rintro ⟨name, descends, asks⟩
      exact ⟨_, located_of_asksFor descends asks⟩
  reaches name descends asks := located_of_asksFor descends asks
  inside target found := by
    obtain ⟨name, descends, _, rfl⟩ := located_eq_some_iff.1 found
    have path : (String.ofList (withSuffix name)).toList = withSuffix name := String.toList_ofList
    refine ⟨path.symm ▸ descends.withSuffix, path.symm ▸ suffix_withSuffix name, ?_⟩
    exact Locator.locate_eq_ok_iff.2 ⟨_, path.symm ▸ relative?_withSuffix descends, rfl⟩
  apart other target target' found found' same name name' descends asks descends' asks' := by
    rw [located_of_asksFor descends asks] at found
    rw [located_of_asksFor descends' asks'] at found'
    cases found
    cases found'
    have same : String.ofList (withSuffix name) = String.ofList (withSuffix name') :=
      congrArg Repository.relativePath same
    exact withSuffix_eq (String.ofList_injective same)
  refused nowhere now r id call channel puts := by
    have routed : server.route r.method r.target = _ := puts.route server.locator
    simp only [nowhere] at routed
    refine ⟨if uploadPackRepository? path = none then .notFound else .noRepository, ?_, ?_⟩
    · simp only [accept, routed]
    · split <;> rfl
  served target found now r id call channel puts := by
    have routed : server.route r.method r.target = _ := puts.route server.locator
    simp only [found] at routed
    exact accept_of_route routed

/-- A dot segment next to what would be appended leads nowhere either. -/
example : located (ofConfig {}).locator "a/..//git-upload-pack" = none := by decide +kernel

end Server
end PackRelay
