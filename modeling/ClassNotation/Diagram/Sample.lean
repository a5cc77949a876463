import ClassNotation.Text.Basic

/-! A sample diagram: interfaces, inheritance, overloaded constructors and each way in which
classes own or know one another. -/

namespace ClassNotation

def sampleLines : List String :=
  ["// sample class diagram",
    "// text after // is ignored",
    "",
    "Nomeavel <Interface>",
    "---",
    "---",
    "+ getNome(): str",
    "---",
    "",
    "Identificavel <Interface>",
    "---",
    "---",
    "+ getId(): int",
    "---",
    "",
    "Aluno",
    "extends Pessoa",
    "implements Nomeavel <Interface>, Identificavel <Interface>",
    "---",
    "- turmas: List<Turma>",
    "- nome: str",
    "- nasc: int",
    "---",
    "+ Aluno(nome: str)",
    "+ Aluno(nome: str, nasc: int)",
    "+ setNome(nome: str): void",
    "+ getNome(): str",
    "+ getId(): int",
    "---",
    "",
    "Pessoa",
    "---",
    "- cpf: str",
    "---",
    "---",
    "",
    "Turma",
    "aggregates Aluno",
    "---",
    "- cod: int",
    "---",
    "---",
    "",
    "Universidade",
    "composes Departamento",
    "---",
    "---",
    "---",
    "",
    "Departamento",
    "association Turma",
    "---",
    "- cod: int",
    "---",
    "---"]

/-- The sample, with every line closed. -/
def sampleDiagram : Text :=
  sampleLines.flatMap fun line => line.toList ++ ['\n']

end ClassNotation
