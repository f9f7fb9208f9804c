import PL0.Binary64.Text
import PL0.Position

/-!
# Tokens

A program is a sequence of words, literals and symbols.  This file names them,
spells them, and says how a diagnostic speaks of one.
-/

namespace PL0

/-- The reserved words. -/
inductive Keyword where
  | funWord | beginWord | endWord
  | ifWord | thenWord | elseWord | whileWord | doWord
  | breakWord | skipWord | returnWord
  | readWord | writeWord | printWord
  | andWord | orWord | notWord
  | intWord | floatWord
deriving DecidableEq, Inhabited

namespace Keyword

/-- Every reserved word. -/
def all : List Keyword :=
  [.funWord, .beginWord, .endWord, .ifWord, .thenWord, .elseWord, .whileWord,
    .doWord, .breakWord, .skipWord, .returnWord, .readWord, .writeWord,
    .printWord, .andWord, .orWord,
    .notWord, .intWord, .floatWord]

/-- How a reserved word is written in a program. -/
def spelling : Keyword → String
  | .funWord => "fun"
  | .beginWord => "begin"
  | .endWord => "end"
  | .ifWord => "if"
  | .thenWord => "then"
  | .elseWord => "else"
  | .whileWord => "while"
  | .doWord => "do"
  | .breakWord => "break"
  | .skipWord => "skip"
  | .returnWord => "return"
  | .readWord => "read"
  | .writeWord => "write"
  | .printWord => "print"
  | .andWord => "and"
  | .orWord => "or"
  | .notWord => "not"
  | .intWord => "int"
  | .floatWord => "float"

/-- The name of a reserved word in a token table. -/
def tableName : Keyword → String
  | .funWord => "FUN"
  | .beginWord => "BEGIN"
  | .endWord => "END"
  | .ifWord => "IF"
  | .thenWord => "THEN"
  | .elseWord => "ELSE"
  | .whileWord => "WHILE"
  | .doWord => "DO"
  | .breakWord => "BREAK"
  | .skipWord => "SKIP"
  | .returnWord => "RETURN"
  | .readWord => "READ"
  | .writeWord => "WRITE"
  | .printWord => "PRINT"
  | .andWord => "AND"
  | .orWord => "OR"
  | .notWord => "NOT"
  | .intWord => "INT"
  | .floatWord => "FLOAT"

/-- The reserved word with a given spelling. -/
def ofSpelling? (word : String) : Option Keyword :=
  all.find? fun keyword => keyword.spelling = word

end Keyword

/-- Operators and punctuation. -/
inductive Symbol where
  | plus | minus | times | divide
  | assign
  | less | lessEqual | greater | greaterEqual | equal
  /-- The sign `!=`. -/
  | notEqual
  /-- The sign `<>`, which means the same as `!=`. -/
  | lessGreater
  | openParen | closeParen | openBracket | closeBracket
  | comma | semicolon | colon
deriving DecidableEq, Inhabited

namespace Symbol

/-- Every symbol. -/
def all : List Symbol :=
  [.plus, .minus, .times, .divide, .assign, .less, .lessEqual, .greater,
    .greaterEqual, .equal, .notEqual, .lessGreater, .openParen, .closeParen,
    .openBracket, .closeBracket, .comma,
    .semicolon, .colon]

/-- How a symbol is written in a program. -/
def spelling : Symbol → String
  | .plus => "+"
  | .minus => "-"
  | .times => "*"
  | .divide => "/"
  | .assign => ":="
  | .less => "<"
  | .lessEqual => "<="
  | .greater => ">"
  | .greaterEqual => ">="
  | .equal => "=="
  | .notEqual => "!="
  | .lessGreater => "<>"
  | .openParen => "("
  | .closeParen => ")"
  | .openBracket => "["
  | .closeBracket => "]"
  | .comma => ","
  | .semicolon => ";"
  | .colon => ":"

/-- The name of a symbol in a token table. -/
def tableName : Symbol → String
  | .plus => "PLUS"
  | .minus => "MINUS"
  | .times => "TIMES"
  | .divide => "DIVIDE"
  | .assign => "ASSIGN"
  | .less => "LT"
  | .lessEqual => "LE"
  | .greater => "GT"
  | .greaterEqual => "GE"
  | .equal => "EQ"
  | .notEqual => "DF"
  | .lessGreater => "NE"
  | .openParen => "LPAREN"
  | .closeParen => "RPAREN"
  | .openBracket => "LBRACKET"
  | .closeBracket => "RBRACKET"
  | .comma => "COMMA"
  | .semicolon => "SEMICOLON"
  | .colon => "COLON"

/-- The symbol written with exactly the given characters. -/
def ofChars? (chars : List Char) : Option Symbol :=
  all.find? fun symbol => symbol.spelling.toList = chars

end Symbol

namespace Token

/-- What a token is, wherever it stands. -/
inductive Kind where
  | integer (value : Int64)
  | float (value : Binary64)
  | string (text : String)
  | identifier (name : String)
  | keyword (word : Keyword)
  | symbol (sign : Symbol)
  | endOfInput
deriving DecidableEq, Inhabited

namespace Kind

/-- The name of a kind of token in a token table. -/
def tableName : Kind → String
  | .integer _ => "INUMBER"
  | .float _ => "FNUMBER"
  | .string _ => "STRING"
  | .identifier _ => "IDENT"
  | .keyword word => word.tableName
  | .symbol sign => sign.tableName
  | .endOfInput => "EOF"

/-- The value of a token as text: what it stands for, or how it is written. -/
def lexeme : Kind → String
  | .integer value => toString value.toInt
  | .float value => value.text
  | .string text => text
  | .identifier name => name
  | .keyword word => word.spelling
  | .symbol sign => sign.spelling
  | .endOfInput => ""

/-- How a diagnostic speaks of a token. -/
def description : Kind → String
  | .integer value => "integer literal " ++ toString value.toInt
  | .float value => "float literal " ++ value.text
  | .string text => "string literal \"" ++ text ++ "\""
  | .identifier name => "identifier '" ++ name ++ "'"
  | .keyword word => "'" ++ word.spelling ++ "'"
  | .symbol sign => "'" ++ sign.spelling ++ "'"
  | .endOfInput => "end of input"

end Kind

end Token

/-- A token and the position of its first character. -/
structure Token where
  kind : Token.Kind
  position : Position
deriving DecidableEq, Inhabited

end PL0
