import Pelagos.Library.HashMap
import Pelagos.Library.Tokens
import Pelagos.Library.Utf8

/-!
# The base images of a Dockerfile

`handle_build` pulls every image that a `FROM` line names, with build arguments and `ARG` defaults
substituted, unless it is an earlier stage, `scratch`, unresolved, or pulled already.
-/

namespace Pelagos.Guest

def asciiUpper (text : String) : String := String.ofList (text.toList.map Char.toUpper)

def asciiLower (text : String) : String := String.ofList (text.toList.map Char.toLower)

/-- A byte of the name of a variable. -/
def isNameByte (byte : UInt8) : Bool := (Char.ofNat byte.toNat).isAlphanum || byte == 0x5F

/-- What a variable is replaced by; nothing for an unknown one. -/
def valueOf (vars : HashMap String String) (name : List UInt8) : List Char :=
  (((Utf8.decode name).bind fun name => vars.lookup name).getD "").toList

/-- The loop of `substitute_build_args`, over bytes: others than variables are kept one by one. -/
def substituteFrom (vars : HashMap String String) : Nat → List UInt8 → List Char
  | 0, _ | _, [] => []
  | fuel + 1, byte :: rest =>
      if byte ≠ 0x24 then Char.ofNat byte.toNat :: substituteFrom vars fuel rest
      else if rest.head? = some 0x7B ∧ 0x7D ∈ rest then
        valueOf vars ((rest.drop 1).takeWhile (· ≠ 0x7D)) ++
          substituteFrom vars fuel ((rest.dropWhile (· ≠ 0x7D)).drop 1)
      else if rest.head?.map isNameByte = some true then
        valueOf vars (rest.takeWhile isNameByte) ++
          substituteFrom vars fuel (rest.dropWhile isNameByte)
      else '$' :: substituteFrom vars fuel rest

/-- Substitute variables in a text. -/
def substituteBuildArgs (text : String) (vars : HashMap String String) : String :=
  String.ofList (substituteFrom vars (Utf8.encode text).length (Utf8.encode text))

/-- The first default of each `ARG` line. -/
def argDefaults (lines : List String) : HashMap String String :=
  lines.foldl (fun vars line =>
    if Text.startsWith (asciiUpper (Text.trim line)) "ARG" then
      let declared := Text.trim (String.ofList ((Text.trim line).toList.drop 3))
      match Text.splitOnce '=' declared.toList with
      | none => vars
      | some (key, value) =>
          let key := Text.trim (String.ofList key)
          if vars.lookup key = none then vars.insert key (Text.trim (String.ofList value))
          else vars
    else vars) ∅

/-- The variables of a build; its arguments override the defaults. -/
def buildVars (buildArgs : List String) (lines : List String) : HashMap String String :=
  buildArgs.foldl (fun vars arg =>
    match Text.splitOnce '=' arg.toList with
    | none => vars
    | some (key, value) => vars.insert (String.ofList key) (String.ofList value))
    (argDefaults lines)

/-- The aliases after a `FROM` line. -/
def withAlias (aliases : List String) (parts : List String) : List String :=
  match parts with
  | _ :: _ :: keyword :: stage :: _ =>
      if asciiLower keyword = "as" then asciiLower stage :: aliases else aliases
  | _ => aliases

/-- The image of a `FROM` line is not pulled: there is none, it is unresolved or `scratch`, or it is
pulled or a stage. -/
def isSkipped (base : String) (aliases pulled : List String) : Bool :=
  base = "" || asciiLower base = "scratch" || Text.startsWith base "$" ||
    asciiLower base ∈ pulled || asciiLower base ∈ aliases

/-- The images that are pulled in turn while the pulls succeed. -/
def baseImagesFrom (vars : HashMap String String) (aliases pulled : List String) :
    List String → List String
  | [] => []
  | line :: lines =>
      if Text.startsWith (asciiUpper (Text.trim line)) "FROM" then
        let parts := Text.tokens (Text.trim line)
        let aliases := withAlias aliases parts
        let base := substituteBuildArgs (parts[1]?.getD "") vars
        if isSkipped base aliases pulled then baseImagesFrom vars aliases pulled lines
        else base :: baseImagesFrom vars aliases (asciiLower base :: pulled) lines
      else baseImagesFrom vars aliases pulled lines

/-- The images that `handle_build` pulls for a Dockerfile. -/
def baseImages (buildArgs : List String) (content : String) : List String :=
  baseImagesFrom (buildVars buildArgs (Text.lines content)) [] [] (Text.lines content)

/-- No image is pulled twice, whatever the case of its letters. -/
theorem nodup_baseImagesFrom (vars : HashMap String String) (lines : List String)
    (aliases pulled : List String) :
    ((baseImagesFrom vars aliases pulled lines).map asciiLower).Nodup ∧
      ∀ base ∈ baseImagesFrom vars aliases pulled lines, asciiLower base ∉ pulled := by
  induction lines generalizing aliases pulled with
  | nil => simp [baseImagesFrom]
  | cons line lines ih =>
      rw [baseImagesFrom]
      split
      · dsimp only
        generalize substituteBuildArgs _ vars = base
        generalize withAlias aliases _ = aliases
        by_cases skipped : isSkipped base aliases pulled = true
        · rw [if_pos skipped]
          exact ih aliases pulled
        · rw [if_neg skipped]
          have fresh : asciiLower base ∉ pulled := by
            intro earlier
            simp [isSkipped, earlier] at skipped
          obtain ⟨nodup, others⟩ := ih aliases (asciiLower base :: pulled)
          refine ⟨?_, fun other member => ?_⟩
          · rw [List.map_cons, List.nodup_cons]
            refine ⟨fun again => ?_, nodup⟩
            obtain ⟨other, member, same⟩ := List.mem_map.mp again
            exact others other member (same ▸ List.mem_cons_self)
          · rcases List.mem_cons.mp member with rfl | later
            · exact fresh
            · exact fun earlier => others other later (List.mem_cons_of_mem _ earlier)
      · exact ih aliases pulled

theorem nodup_baseImages (buildArgs : List String) (content : String) :
    ((baseImages buildArgs content).map asciiLower).Nodup :=
  (nodup_baseImagesFrom _ _ _ _).1

end Pelagos.Guest
